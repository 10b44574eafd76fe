import Resoto.Query.Builder

/-!
# Renaming variables: the functor laws and the section round trip

`change_variable(fn)` applies `fn` to every variable name of a query: the predicate names,
function property paths, sort names, aggregate variable names and string aggregate-function
names, down through with-clauses and merge sub-queries (`variableNames` lists them in the
order of the walk). It is a functor: the identity renames nothing and two renamings in a
row are one renaming by their composite (`changeVariable_functor`). More generally a
renaming that fixes every variable name of a value returns the value unchanged.

`on_section(s)` and `relative_to_section(s)` are two such renamings. Relative names are
plain (`name` under the section `s` is `s.name`), a name under another section is
root-anchored (`/other.name`). The two are inverse on the names each produces
(`onSection_relativeToSection`), once the section itself is not root-anchored: a plain
name under `/s` becomes `/s.name`, which `variable_to_relative` takes for a root-anchored
name and keeps (`onSection_relativeToSection_rootSection`).
-/

namespace Resoto

/-! ## The variable names of a value -/

/-- The variable names of `AggregateVariableCombined`: its names, not its literals. -/
def AggregateVariableCombined.variableNames (v : AggregateVariableCombined) : List String :=
  v.parts.filterMap (Sum.elim (fun _ => none) fun n => some n.name)

/-- The variable names of an `AggregateVariable`. -/
def AggregateVariable.variableNames (v : AggregateVariable) : List String :=
  v.name.elim (fun n => [n.name]) AggregateVariableCombined.variableNames

/-- The variable name of an `AggregateFunction`: its name when it is a `str`. -/
def AggregateFunction.variableNames (f : AggregateFunction) : List String :=
  f.name.elim (fun n => [n]) fun _ => []

/-- The variable names of an `Aggregate`. -/
def Aggregate.variableNames (a : Aggregate) : List String :=
  a.groupBy.flatMap AggregateVariable.variableNames ++ a.groupFunc.flatMap AggregateFunction.variableNames

mutual

/-- The names `Term.change_variable` renames. -/
def Term.variableNames : Term → List String
  | .combinedTerm left _ right => left.variableNames ++ right.variableNames
  | .predicate name _ _ _ => [name]
  | .functionTerm _ propertyPath _ => [propertyPath]
  | .mergeTerm preFilter merge postFilter =>
    preFilter.variableNames ++ MergeQuery.variableNamesOf merge ++ Term.variableNamesOpt postFilter
  | .notTerm term => term.variableNames
  | _ => []

/-- The variable names of an optional term. -/
def Term.variableNamesOpt : Option Term → List String
  | some t => t.variableNames
  | none => []

/-- The variable names of merge queries. -/
def MergeQuery.variableNamesOf : List MergeQuery → List String
  | [] => []
  | mq :: mqs => MergeQuery.variableNames mq ++ MergeQuery.variableNamesOf mqs

/-- The variable names of a merge query: those of its query. -/
def MergeQuery.variableNames : MergeQuery → List String
  | ⟨_, query, _⟩ => Query.variableNames query

/-- The names `Query.change_variable` renames. -/
def Query.variableNames : Query → List String
  | ⟨current, rest, _, aggregate⟩ =>
    Part.variableNames current ++ Part.variableNamesOf rest ++
      (aggregate.map Aggregate.variableNames).getD []

/-- The variable names of parts. -/
def Part.variableNamesOf : List Part → List String
  | [] => []
  | p :: ps => Part.variableNames p ++ Part.variableNamesOf ps

/-- The names `Part.change_variable` renames. -/
def Part.variableNames : Part → List String
  | ⟨term, _, withClause, sort, _, _⟩ =>
    term.variableNames ++ WithClause.variableNamesOpt withClause ++ sort.map (·.name)

/-- The variable names of an optional with-clause. -/
def WithClause.variableNamesOpt : Option WithClause → List String
  | some w => WithClause.variableNames w
  | none => []

/-- The names `WithClause.change_variable` renames. -/
def WithClause.variableNames : WithClause → List String
  | ⟨_, _, term, withClause⟩ => Term.variableNamesOpt term ++ WithClause.variableNamesOpt withClause

end

/-! ## A renaming that fixes every name changes nothing -/

section Fix

variable {fn : String → String}

theorem SortBy.changeVariable_of_forall {s : SortBy} (h : fn s.name = s.name) :
    s.changeVariable fn = s := by
  rw [SortBy.changeVariable, h]

theorem AggregateVariableCombined.changeVariable_of_forall {v : AggregateVariableCombined}
    (h : ∀ n ∈ v.variableNames, fn n = n) : v.changeVariable fn = v := by
  obtain ⟨parts⟩ := v
  rw [changeVariable, AggregateVariableCombined.mk.injEq]
  conv_rhs => rw [← List.map_id parts]
  refine List.map_congr_left fun p hp => ?_
  rcases p with p | n
  · rfl
  · exact congrArg (Sum.inr ∘ AggregateVariableName.mk)
      (h n.name (List.mem_filterMap.mpr ⟨.inr n, hp, rfl⟩))

theorem AggregateVariable.changeVariable_of_forall {v : AggregateVariable}
    (h : ∀ n ∈ v.variableNames, fn n = n) : v.changeVariable fn = v := by
  obtain ⟨name | name, asName⟩ := v
  · simp only [changeVariable, Sum.map_inl, AggregateVariableName.changeVariable,
      h name.name (List.mem_singleton_self _)]
  · simp only [changeVariable, Sum.map_inr, AggregateVariableCombined.changeVariable_of_forall h]

theorem AggregateFunction.changeVariable_of_forall {f : AggregateFunction}
    (h : ∀ n ∈ f.variableNames, fn n = n) : f.changeVariable fn = f := by
  obtain ⟨function, name | name, ops, asName⟩ := f
  · simp only [changeVariable, h name (List.mem_singleton_self _)]
  · rfl

theorem Aggregate.changeVariable_of_forall {a : Aggregate} (h : ∀ n ∈ a.variableNames, fn n = n) :
    a.changeVariable fn = a := by
  obtain ⟨groupBy, groupFunc⟩ := a
  simp only [variableNames, List.mem_append, List.mem_flatMap] at h
  rw [changeVariable, Aggregate.mk.injEq]
  constructor
  · conv_rhs => rw [← List.map_id groupBy]
    exact List.map_congr_left fun v hv =>
      AggregateVariable.changeVariable_of_forall fun n hn => h n (.inl ⟨v, hv, hn⟩)
  · conv_rhs => rw [← List.map_id groupFunc]
    exact List.map_congr_left fun f hf =>
      AggregateFunction.changeVariable_of_forall fun n hn => h n (.inr ⟨f, hf, hn⟩)

mutual

theorem Term.changeVariable_of_forall :
    ∀ t : Term, (∀ n ∈ t.variableNames, fn n = n) → t.changeVariable fn = t
  | .combinedTerm left _ right, h => by
    obtain ⟨hl, hr⟩ := List.forall_mem_append.mp h
    show Term.combinedTerm _ _ _ = _
    rw [Term.changeVariable_of_forall left hl, Term.changeVariable_of_forall right hr]
  | .predicate name _ _ _, h => by
    show Term.predicate _ _ _ _ = _
    rw [h name (List.mem_singleton_self _)]
  | .functionTerm _ propertyPath _, h => by
    show Term.functionTerm _ _ _ = _
    rw [h propertyPath (List.mem_singleton_self _)]
  | .mergeTerm preFilter merge postFilter, h => by
    obtain ⟨h, hpost⟩ := List.forall_mem_append.mp h
    obtain ⟨hpre, hmerge⟩ := List.forall_mem_append.mp h
    show Term.mergeTerm _ _ _ = _
    rw [Term.changeVariable_of_forall preFilter hpre, MergeQuery.changeVariables_of_forall merge hmerge,
      Term.changeVariableOpt_of_forall postFilter hpost]
  | .notTerm term, h => by
    show Term.notTerm _ = _
    rw [Term.changeVariable_of_forall term h]
  | .allTerm, _ | .idTerm _, _ | .isTerm _, _ => rfl
termination_by structural t => t

theorem Term.changeVariableOpt_of_forall :
    ∀ t : Option Term, (∀ n ∈ Term.variableNamesOpt t, fn n = n) → Term.changeVariableOpt fn t = t
  | some t, h => by simp only [Term.changeVariableOpt, Term.changeVariable_of_forall t h]
  | none, _ => rfl
termination_by structural t => t

theorem MergeQuery.changeVariables_of_forall :
    ∀ mqs : List MergeQuery, (∀ n ∈ MergeQuery.variableNamesOf mqs, fn n = n) →
      MergeQuery.changeVariables fn mqs = mqs
  | [], _ => rfl
  | mq :: mqs, h => by
    simp only [MergeQuery.variableNamesOf, List.mem_append] at h
    simp only [MergeQuery.changeVariables,
      MergeQuery.changeVariable_of_forall mq fun n hn => h n (.inl hn),
      MergeQuery.changeVariables_of_forall mqs fun n hn => h n (.inr hn)]
termination_by structural mqs => mqs

theorem MergeQuery.changeVariable_of_forall :
    ∀ mq : MergeQuery, (∀ n ∈ MergeQuery.variableNames mq, fn n = n) →
      MergeQuery.changeVariable fn mq = mq
  | ⟨_, query, _⟩, h => by
    simp only [MergeQuery.changeVariable, Query.changeVariable_of_forall query h]
termination_by structural mq => mq

theorem Query.changeVariable_of_forall :
    ∀ q : Query, (∀ n ∈ Query.variableNames q, fn n = n) → Query.changeVariable fn q = q
  | ⟨current, rest, _, aggregate⟩, h => by
    simp only [Query.variableNames, List.mem_append] at h
    have hagg : aggregate.map (Aggregate.changeVariable fn) = aggregate := by
      cases aggregate with
      | none => rfl
      | some a => exact congrArg some (Aggregate.changeVariable_of_forall fun n hn => h n (.inr hn))
    simp only [Query.changeVariable, hagg,
      Part.changeVariable_of_forall current fun n hn => h n (.inl (.inl hn)),
      Part.changeVariables_of_forall rest fun n hn => h n (.inl (.inr hn))]
termination_by structural q => q

theorem Part.changeVariables_of_forall :
    ∀ ps : List Part, (∀ n ∈ Part.variableNamesOf ps, fn n = n) → Part.changeVariables fn ps = ps
  | [], _ => rfl
  | p :: ps, h => by
    simp only [Part.variableNamesOf, List.mem_append] at h
    simp only [Part.changeVariables, Part.changeVariable_of_forall p fun n hn => h n (.inl hn),
      Part.changeVariables_of_forall ps fun n hn => h n (.inr hn)]
termination_by structural ps => ps

theorem Part.changeVariable_of_forall :
    ∀ p : Part, (∀ n ∈ Part.variableNames p, fn n = n) → Part.changeVariable fn p = p
  | ⟨term, _, withClause, sort, _, _⟩, h => by
    simp only [Part.variableNames, List.mem_append, List.mem_map] at h
    have hsort : sort.map (SortBy.changeVariable fn) = sort := by
      conv_rhs => rw [← List.map_id sort]
      exact List.map_congr_left fun s hs => SortBy.changeVariable_of_forall (h _ (.inr ⟨s, hs, rfl⟩))
    simp only [Part.changeVariable, hsort,
      Term.changeVariable_of_forall term fun n hn => h n (.inl (.inl hn)),
      WithClause.changeVariableOpt_of_forall withClause fun n hn => h n (.inl (.inr hn))]
termination_by structural p => p

theorem WithClause.changeVariableOpt_of_forall :
    ∀ w : Option WithClause, (∀ n ∈ WithClause.variableNamesOpt w, fn n = n) →
      WithClause.changeVariableOpt fn w = w
  | some w, h => by simp only [WithClause.changeVariableOpt, WithClause.changeVariable_of_forall w h]
  | none, _ => rfl
termination_by structural w => w

theorem WithClause.changeVariable_of_forall :
    ∀ w : WithClause, (∀ n ∈ WithClause.variableNames w, fn n = n) →
      WithClause.changeVariable fn w = w
  | ⟨_, _, term, withClause⟩, h => by
    simp only [WithClause.variableNames, List.mem_append] at h
    simp only [WithClause.changeVariable,
      Term.changeVariableOpt_of_forall term fun n hn => h n (.inl hn),
      WithClause.changeVariableOpt_of_forall withClause fun n hn => h n (.inr hn)]
termination_by structural w => w

end

end Fix

/-! ## Two renamings in a row -/

section Comp

variable (f g : String → String)

@[simp] theorem SortBy.changeVariable_comp :
    SortBy.changeVariable f ∘ SortBy.changeVariable g = SortBy.changeVariable (f ∘ g) := rfl

theorem AggregateVariableCombined.changeVariable_changeVariable (v : AggregateVariableCombined) :
    (v.changeVariable g).changeVariable f = v.changeVariable (f ∘ g) := by
  simp only [changeVariable, List.map_map, AggregateVariableCombined.mk.injEq]
  exact List.map_congr_left fun p _ => by cases p <;> rfl

theorem AggregateVariable.changeVariable_changeVariable (v : AggregateVariable) :
    (v.changeVariable g).changeVariable f = v.changeVariable (f ∘ g) := by
  obtain ⟨name | name, asName⟩ := v
  · rfl
  · simp only [changeVariable, Sum.map_inr, AggregateVariableCombined.changeVariable_changeVariable]

theorem Aggregate.changeVariable_changeVariable (a : Aggregate) :
    (a.changeVariable g).changeVariable f = a.changeVariable (f ∘ g) := by
  simp only [changeVariable, List.map_map, Aggregate.mk.injEq]
  exact ⟨List.map_congr_left fun v _ => AggregateVariable.changeVariable_changeVariable f g v,
    List.map_congr_left fun af _ => by obtain ⟨_, _ | _, _, _⟩ := af <;> rfl⟩

mutual

theorem Term.changeVariable_changeVariable :
    ∀ t : Term, (t.changeVariable g).changeVariable f = t.changeVariable (f ∘ g)
  | .combinedTerm left _ right => by
    show Term.combinedTerm _ _ _ = Term.combinedTerm _ _ _
    rw [Term.changeVariable_changeVariable left, Term.changeVariable_changeVariable right]
  | .mergeTerm preFilter merge postFilter => by
    show Term.mergeTerm _ _ _ = Term.mergeTerm _ _ _
    rw [Term.changeVariable_changeVariable preFilter, MergeQuery.changeVariables_changeVariables merge,
      Term.changeVariableOpt_changeVariableOpt postFilter]
  | .notTerm term => by
    show Term.notTerm _ = Term.notTerm _
    rw [Term.changeVariable_changeVariable term]
  | .predicate .. | .functionTerm .. | .allTerm | .idTerm _ | .isTerm _ => rfl
termination_by structural t => t

theorem Term.changeVariableOpt_changeVariableOpt : ∀ t : Option Term,
    Term.changeVariableOpt f (Term.changeVariableOpt g t) = Term.changeVariableOpt (f ∘ g) t
  | some t => by simp only [Term.changeVariableOpt, Term.changeVariable_changeVariable t]
  | none => rfl
termination_by structural t => t

theorem MergeQuery.changeVariables_changeVariables : ∀ mqs : List MergeQuery,
    MergeQuery.changeVariables f (MergeQuery.changeVariables g mqs) =
      MergeQuery.changeVariables (f ∘ g) mqs
  | [] => rfl
  | mq :: mqs => by
    simp only [MergeQuery.changeVariables, MergeQuery.changeVariable_changeVariable mq,
      MergeQuery.changeVariables_changeVariables mqs]
termination_by structural mqs => mqs

theorem MergeQuery.changeVariable_changeVariable : ∀ mq : MergeQuery,
    MergeQuery.changeVariable f (MergeQuery.changeVariable g mq) = MergeQuery.changeVariable (f ∘ g) mq
  | ⟨_, query, _⟩ => by
    simp only [MergeQuery.changeVariable, Query.changeVariable_changeVariable query]
termination_by structural mq => mq

theorem Query.changeVariable_changeVariable : ∀ q : Query,
    Query.changeVariable f (Query.changeVariable g q) = Query.changeVariable (f ∘ g) q
  | ⟨current, rest, _, aggregate⟩ => by
    have hagg : (aggregate.map (Aggregate.changeVariable g)).map (Aggregate.changeVariable f) =
        aggregate.map (Aggregate.changeVariable (f ∘ g)) := by
      cases aggregate with
      | none => rfl
      | some a => exact congrArg some (Aggregate.changeVariable_changeVariable f g a)
    simp only [Query.changeVariable, hagg, Part.changeVariable_changeVariable current,
      Part.changeVariables_changeVariables rest]
termination_by structural q => q

theorem Part.changeVariables_changeVariables : ∀ ps : List Part,
    Part.changeVariables f (Part.changeVariables g ps) = Part.changeVariables (f ∘ g) ps
  | [] => rfl
  | p :: ps => by
    simp only [Part.changeVariables, Part.changeVariable_changeVariable p,
      Part.changeVariables_changeVariables ps]
termination_by structural ps => ps

theorem Part.changeVariable_changeVariable : ∀ p : Part,
    Part.changeVariable f (Part.changeVariable g p) = Part.changeVariable (f ∘ g) p
  | ⟨term, _, withClause, sort, _, _⟩ => by
    simp only [Part.changeVariable, Term.changeVariable_changeVariable term,
      WithClause.changeVariableOpt_changeVariableOpt withClause, List.map_map,
      SortBy.changeVariable_comp]
termination_by structural p => p

theorem WithClause.changeVariableOpt_changeVariableOpt : ∀ w : Option WithClause,
    WithClause.changeVariableOpt f (WithClause.changeVariableOpt g w) =
      WithClause.changeVariableOpt (f ∘ g) w
  | some w => by
    simp only [WithClause.changeVariableOpt, WithClause.changeVariable_changeVariable w]
  | none => rfl
termination_by structural w => w

theorem WithClause.changeVariable_changeVariable : ∀ w : WithClause,
    WithClause.changeVariable f (WithClause.changeVariable g w) = WithClause.changeVariable (f ∘ g) w
  | ⟨_, _, term, withClause⟩ => by
    simp only [WithClause.changeVariable, Term.changeVariableOpt_changeVariableOpt term,
      WithClause.changeVariableOpt_changeVariableOpt withClause]
termination_by structural w => w

end

/-- **`change_variable` is a functor.** On queries, terms, parts, with-clauses and
aggregates, renaming by the identity changes nothing, and renaming by `g` and then by `f`
is renaming by `f ∘ g`. -/
theorem changeVariable_functor :
    (∀ q : Query, q.changeVariable id = q ∧
      q.changeVariable (f ∘ g) = (q.changeVariable g).changeVariable f) ∧
    (∀ t : Term, t.changeVariable id = t ∧
      t.changeVariable (f ∘ g) = (t.changeVariable g).changeVariable f) ∧
    (∀ p : Part, Part.changeVariable id p = p ∧
      Part.changeVariable (f ∘ g) p = Part.changeVariable f (Part.changeVariable g p)) ∧
    (∀ w : WithClause, WithClause.changeVariable id w = w ∧
      WithClause.changeVariable (f ∘ g) w = WithClause.changeVariable f (WithClause.changeVariable g w)) ∧
    ∀ a : Aggregate, a.changeVariable id = a ∧
      a.changeVariable (f ∘ g) = (a.changeVariable g).changeVariable f :=
  ⟨fun q => ⟨Query.changeVariable_of_forall q fun _ _ => rfl,
      (Query.changeVariable_changeVariable f g q).symm⟩,
    fun t => ⟨Term.changeVariable_of_forall t fun _ _ => rfl,
      (Term.changeVariable_changeVariable f g t).symm⟩,
    fun p => ⟨Part.changeVariable_of_forall p fun _ _ => rfl,
      (Part.changeVariable_changeVariable f g p).symm⟩,
    fun w => ⟨WithClause.changeVariable_of_forall w fun _ _ => rfl,
      (WithClause.changeVariable_changeVariable f g w).symm⟩,
    fun a => ⟨Aggregate.changeVariable_of_forall fun _ _ => rfl,
      (Aggregate.changeVariable_changeVariable f g a).symm⟩⟩

end Comp

/-! ## Sections -/

/-- A name without `/`: relative to a section, and not root-anchored. -/
def Plain (name : String) : Prop := '/' ∉ name.data

instance (name : String) : Decidable (Plain name) := inferInstanceAs (Decidable ('/' ∉ name.data))

theorem startswith_iff {s p : String} : startswith s p = true ↔ ∃ t, s.data = p.data ++ t := by
  rw [startswith, List.isPrefixOf_iff_prefix]
  exact ⟨fun ⟨t, h⟩ => ⟨t, h.symm⟩, fun ⟨t, h⟩ => ⟨t, h.symm⟩⟩

theorem startswith_pathRoot {n : String} (hn : Plain n) : startswith n PathRoot = false := by
  rw [← Bool.not_eq_true, startswith_iff]
  rintro ⟨t, h⟩
  exact hn (h ▸ List.mem_cons_self _ _)

theorem startswith_append (p t : String) : startswith (p ++ t) p = true :=
  startswith_iff.mpr ⟨t.data, rfl⟩

theorem dropPrefix_append (p t : String) : dropPrefix (p ++ t) p.length = t :=
  String.ext (List.drop_left _ _)

variable {s : String}

/-- `variable_to_absolute(s, …)` undoes `variable_to_relative(s, …)` on a plain name. -/
theorem variableToAbsolute_variableToRelative (hs : s ≠ "") (hroot : s ≠ PathRoot) {n : String}
    (hn : Plain n) : variableToAbsolute (some s) (variableToRelative s n) = n := by
  rw [variableToRelative, startswith_pathRoot hn, if_neg Bool.false_ne_true]
  split
  · next hpre =>
    obtain ⟨t, ht⟩ := startswith_iff.mp hpre
    have hsplit : n = (s ++ ".") ++ ⟨t⟩ := String.ext ht
    have ht' : Plain ⟨t⟩ := fun h => hn (ht ▸ List.mem_append_right _ h)
    rw [hsplit, show s.length + 1 = (s ++ ".").length from (String.length_append s ".").symm,
      dropPrefix_append, variableToAbsolute, startswith_pathRoot ht', if_neg Bool.false_ne_true,
      if_pos ⟨hs, hroot⟩, String.append_assoc]
  · rw [variableToAbsolute, if_pos (startswith_append PathRoot n)]
    exact dropPrefix_append PathRoot n

/-- `variable_to_relative(s, …)` undoes `variable_to_absolute(s, …)` on a plain name, and
on a root-anchored name outside `s`, when `s` itself is not root-anchored. -/
theorem variableToRelative_variableToAbsolute (hs : s ≠ "") (hroot : s ≠ PathRoot)
    (hsroot : startswith s PathRoot = false) {n : String}
    (hn : Plain n ∨ ∃ m, n = PathRoot ++ m ∧ Plain m ∧ startswith m (s ++ ".") = false) :
    variableToRelative s (variableToAbsolute (some s) n) = n := by
  rcases hn with hn | ⟨m, rfl, hm, hms⟩
  · rw [variableToAbsolute, startswith_pathRoot hn, if_neg Bool.false_ne_true, if_pos ⟨hs, hroot⟩,
      variableToRelative]
    have hnroot : startswith (s ++ "." ++ n) PathRoot = startswith s PathRoot := by
      obtain ⟨c, cs, hcs⟩ := List.exists_cons_of_ne_nil fun h => hs (String.ext h)
      show List.isPrefixOf ['/'] (s.data ++ ['.'] ++ n.data) = List.isPrefixOf ['/'] s.data
      simp [hcs, List.isPrefixOf]
    rw [hnroot, hsroot, if_neg Bool.false_ne_true, if_pos (startswith_append (s ++ ".") n),
      String.append_assoc,
      show s.length + 1 = (s ++ ".").length from (String.length_append s ".").symm, ← String.append_assoc,
      dropPrefix_append]
  · rw [variableToAbsolute, if_pos (startswith_append PathRoot m),
      show dropPrefix (PathRoot ++ m) 1 = m from dropPrefix_append PathRoot m,
      variableToRelative, startswith_pathRoot hm, if_neg Bool.false_ne_true, hms,
      if_neg Bool.false_ne_true]

/-- **The section round trip.** For a section `s` other than `/` and `""`:
`on_section(s)` undoes `relative_to_section(s)` on a query whose names are all plain, and
when `s` is not root-anchored, `relative_to_section(s)` undoes `on_section(s)` on a query
whose names are plain, or root-anchored outside `s`. -/
theorem onSection_relativeToSection (hs : s ≠ "") (hroot : s ≠ PathRoot) :
    (∀ q : Query, (∀ n ∈ q.variableNames, Plain n) →
      (q.relativeToSection s).onSection (some s) = q) ∧
    (startswith s PathRoot = false → ∀ q : Query,
      (∀ n ∈ q.variableNames,
        Plain n ∨ ∃ m, n = PathRoot ++ m ∧ Plain m ∧ startswith m (s ++ ".") = false) →
      (q.onSection (some s)).relativeToSection s = q) := by
  have hsect : (if some s = none ∨ some s = some PathRoot then none else some s) = some s :=
    if_neg (by simpa using hroot)
  refine ⟨fun q hq => ?_, fun hsroot q hq => ?_⟩
  · rw [Query.relativeToSection, if_pos hroot, Query.onSection, hsect,
      Query.changeVariable_changeVariable]
    exact Query.changeVariable_of_forall q fun n hn =>
      variableToAbsolute_variableToRelative hs hroot (hq n hn)
  · rw [Query.onSection, hsect, Query.relativeToSection, if_pos hroot,
      Query.changeVariable_changeVariable]
    exact Query.changeVariable_of_forall q fun n hn =>
      variableToRelative_variableToAbsolute hs hroot hsroot (hq n hn)

/-- A query reading `name` and `/metadata.created`. -/
def sectionQuery : Query :=
  Query.«by» (.term (.combinedTerm ((P.single "name").eq (.str "a")) "and"
    ((P.single "/metadata.created").eq (.num 1))))

theorem onSection_relativeToSection_reported :
    ("reported" ≠ "" ∧ "reported" ≠ PathRoot ∧ startswith "reported" PathRoot = false) ∧
      (sectionQuery.onSection (some "reported")).relativeToSection "reported" = sectionQuery :=
  ⟨⟨by decide, by decide, rfl⟩,
    (onSection_relativeToSection (show "reported" ≠ "" by decide) (by decide)).2 rfl sectionQuery
      fun n hn => by
        have hnames : sectionQuery.variableNames = ["name", "/metadata.created"] := by decide
        simp only [hnames, List.mem_cons, List.not_mem_nil, or_false] at hn
        rcases hn with rfl | rfl
        exacts [.inl (by decide), .inr ⟨"metadata.created", by decide, by decide, by decide⟩]⟩

/-- **A root-anchored section does not round-trip.** With `s = "/x"`, `on_section(s)`
turns the plain name `a` into `/x.a`, which `relative_to_section(s)` keeps as a
root-anchored name. -/
theorem onSection_relativeToSection_rootSection :
    (((Query.«by» (.term ((P.single "a").eq (.num 1)))).onSection (some "/x")).relativeToSection
      "/x").variableNames = ["/x.a"] ∧
    ((Query.«by» (.term ((P.single "a").eq (.num 1)))).onSection (some "/x")).relativeToSection "/x" ≠
      Query.«by» (.term ((P.single "a").eq (.num 1))) :=
  ⟨by decide, fun h => absurd (congrArg Query.variableNames h) (by decide)⟩

end Resoto
