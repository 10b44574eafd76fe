import Resoto.Query.Rewrite

/-!
# The ancestor/descendant rewrite keeps the logic of the query

The docstring of `rewrite_for_ancestors_descendants`: "Even if the query is rewritten, the
logic of the query is not changed and stays the same." The logic is read here as a truth
value under a valuation of the atoms (predicates, `is`, `id` and function terms): `all` is
true, `not` negates, `or` is disjunction and `and` conjunction, and a `MergeTerm` is its
pre-filter and its post-filter (the merge only adds data). `walk_term` takes every
operator other than `or` for `and`, and so does the reading.

The proof is one accumulator invariant: after a walk of `t`, `before_merge and after_merge`
means what it meant before, and `t`.
-/

namespace Resoto

/-! ## The reading -/

mutual

/-- The truth value of a term under a valuation `v` of its atoms. -/
def Term.eval (v : Term → Bool) : Term → Bool
  | .allTerm => true
  | .notTerm term => !term.eval v
  | .combinedTerm left op right =>
    if op = "or" then left.eval v || right.eval v else left.eval v && right.eval v
  | .mergeTerm preFilter _ postFilter => preFilter.eval v && Term.evalOpt v postFilter
  | atom => v atom
termination_by structural t => t

/-- An absent post-filter reads as true. -/
def Term.evalOpt (v : Term → Bool) : Option Term → Bool
  | some t => t.eval v
  | none => true
termination_by structural t => t

end

/-- What the two accumulators filter together. -/
def MergeSplit.eval (v : Term → Bool) (s : MergeSplit) : Bool :=
  s.beforeMerge.eval v && s.afterMerge.eval v

section

variable (v : Term → Bool)

@[simp] theorem Term.eval_allTerm : Term.allTerm.eval v = true := rfl

@[simp] theorem Term.eval_combinedTerm (left : Term) (op : String) (right : Term) :
    (Term.combinedTerm left op right).eval v =
      if op = "or" then left.eval v || right.eval v else left.eval v && right.eval v := rfl

@[simp] theorem Term.eval_mergeTerm (preFilter : Term) (merge : List MergeQuery)
    (postFilter : Option Term) :
    (Term.mergeTerm preFilter merge postFilter).eval v = (preFilter.eval v && Term.evalOpt v postFilter) :=
  rfl

@[simp] theorem Term.evalOpt_some (t : Term) : Term.evalOpt v (some t) = t.eval v := rfl

@[simp] theorem Term.evalOpt_none : Term.evalOpt v none = true := rfl

theorem Term.eval_combinedTerm_and (left right : Term) :
    (Term.combinedTerm left "and" right).eval v = (left.eval v && right.eval v) := by
  rw [Term.eval_combinedTerm, if_neg (by decide)]

@[simp] theorem Term.eval_andTerm (s t : Term) : (s.andTerm t).eval v = (s.eval v && t.eval v) := by
  by_cases hs : s = .allTerm
  · rw [hs, Term.allTerm_andTerm, Term.eval_allTerm, Bool.true_and]
  by_cases ht : t = .allTerm
  · rw [ht, Term.andTerm_allTerm, Term.eval_allTerm, Bool.and_true]
  rw [Term.andTerm_of_ne hs ht, Term.eval_combinedTerm_and]

/-! ## The accumulator invariant -/

variable (resolved : List String)

/-- One conjunction step keeps the invariant, given that the walks of its sides do. -/
theorem walkConjunction_eval {left right : Term} {walkLeft walkRight : MergeSplit → Except PyError MergeSplit}
    (hl : ∀ {s s'}, walkLeft s = .ok s' → s'.eval v = (s.eval v && left.eval v))
    (hr : ∀ {s s'}, walkRight s = .ok s' → s'.eval v = (s.eval v && right.eval v))
    {s s' : MergeSplit} (h : walkConjunction resolved left right walkLeft walkRight s = .ok s') :
    s'.eval v = (s.eval v && (left.eval v && right.eval v)) := by
  simp only [walkConjunction] at h
  split_ifs at h
  · obtain ⟨s₁, h₁, h₂⟩ := Except.bind_eq_ok.mp h
    rw [hr h₂, hl h₁, Bool.and_assoc]
  · rw [hl h]
    simp only [MergeSplit.eval, Term.eval_andTerm]
    cases left.eval v <;> cases right.eval v <;> simp
  · rw [hr h]
    simp only [MergeSplit.eval, Term.eval_andTerm]
    cases left.eval v <;> cases right.eval v <;> simp

mutual

/-- **`walk_term` keeps the logic.** After a walk of `t` the accumulators mean what they
meant before, and `t`. -/
theorem walkTerm_eval : ∀ (t : Term) {s s' : MergeSplit}, walkTerm resolved t s = .ok s' →
    s'.eval v = (s.eval v && t.eval v)
  | .combinedTerm left op right, s, s', h => by
    by_cases hop : op = "or"
    · subst hop
      obtain rfl := Except.ok.inj h
      simp [MergeSplit.eval, Bool.and_assoc]
    · rw [walkTerm_combinedTerm, if_neg hop] at h
      rw [walkConjunction_eval v resolved (walkTerm_eval left) (walkTerm_eval right) h]
      simp [hop]
  | .mergeTerm preFilter merge postFilter, s, s', h => by
    rw [walkTerm_mergeTerm] at h
    rw [walkMergeTerm_eval preFilter postFilter (walkTerm_eval preFilter) h, Term.eval_mergeTerm]
  | .allTerm, s, s', h | .notTerm _, s, s', h | .predicate .., s, s', h | .idTerm _, s, s', h
  | .isTerm _, s, s', h | .functionTerm .., s, s', h => by
    obtain rfl := Except.ok.inj h
    simp [MergeSplit.eval, Bool.and_assoc]
termination_by structural t => t

/-- The `MergeTerm` branch of `walk_term` keeps the logic. -/
theorem walkMergeTerm_eval (preFilter : Term) : ∀ (postFilter : Option Term)
    {walkPre : MergeSplit → Except PyError MergeSplit}
    (_ : ∀ {s s'}, walkPre s = .ok s' → s'.eval v = (s.eval v && preFilter.eval v))
    {s s' : MergeSplit}, walkMergeTerm resolved preFilter postFilter walkPre s = .ok s' →
    s'.eval v = (s.eval v && (preFilter.eval v && Term.evalOpt v postFilter))
  | some postFilter, _, hpre, s, s', h => by
    simp only [walkMergeTerm] at h
    rw [walkConjunction_eval v resolved hpre (walkTerm_eval postFilter) h]
    rw [Term.evalOpt_some]
  | none, _, hpre, s, s', h => by
    simp only [walkMergeTerm] at h
    rw [hpre h, Term.evalOpt_none, Bool.and_true]
termination_by structural t => t

end

/-! ## The rewrite -/

/-- **`rewrite_for_ancestors_descendants` keeps the logic of the part.** A rewritten part
differs from the original in its term only, and under every valuation of the atoms the new
term has the truth value of the old one. -/
theorem rewriteForAncestorsDescendants_eval {p p' : Part}
    (h : p.rewriteForAncestorsDescendants resolved = .ok p') :
    p' = { p with term := p'.term } ∧ ∀ v, p'.term.eval v = p.term.eval v := by
  rcases rewriteForAncestorsDescendants_ok resolved h with ⟨-, rfl⟩ | ⟨-, s, hs, _, -, rfl⟩
  · exact ⟨rfl, fun _ => rfl⟩
  · refine ⟨rfl, fun v => ?_⟩
    have := walkTerm_eval v resolved _ hs
    simp only [MergeSplit.eval, Term.eval_allTerm, Bool.true_and] at this
    simpa using this

/-- The spec's scenario S3 on an ancestor kind the resolver does not precompute:
`ancestors.aws_vpc.reported.name == "prod" and k == 1`. -/
def vpcFilterPart : Part :=
  { term := .combinedTerm (.predicate "ancestors.aws_vpc.reported.name" "==" (.str "prod") []) "and"
      (.predicate "k" "==" (.num 1) []) }

theorem rewriteForAncestorsDescendants_eval_vpcFilterPart :
    ∃ p', vpcFilterPart.rewriteForAncestorsDescendants resolvedPropertyNames = .ok p' ∧
      p' = { vpcFilterPart with term := p'.term } ∧
      ∀ v, p'.term.eval v = vpcFilterPart.term.eval v :=
  ⟨_, rfl, rewriteForAncestorsDescendants_eval resolvedPropertyNames rfl⟩

end

end Resoto
