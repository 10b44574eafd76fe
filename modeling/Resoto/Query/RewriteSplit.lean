import Resoto.Query.RewriteSound

/-!
# What the ancestor/descendant rewrite puts before the merge, and which merges it keeps

The docstring promises "a prefilter with all terms that do not depend on the merge".
`walk_term` decides dependence by `has_ancestor_descendant` alone, and it does keep every
ancestor/descendant predicate out of the pre-filter (`rewriteForAncestorsDescendants_preFilter`).
Two of its branches lose track of the merges a term already carries:

* a `MergeTerm` with a post-filter is walked as `pre_filter and post_filter`, so a clean
  conjunct of the post-filter, which may read the merge's data, joins the pre-filter that
  runs before the merge (`rewrite_postFilterOnMerge`);
* only a top-level `MergeTerm`'s merge queries are carried over, so one nested under a
  conjunction is dropped while its filters are kept (`rewrite_ancestorFilterOnMerge`).
-/

namespace Resoto

section

variable (resolved : List String)

@[simp] theorem hasAncestorDescendant_andTerm (s t : Term) :
    hasAncestorDescendant resolved (s.andTerm t) =
      (hasAncestorDescendant resolved s || hasAncestorDescendant resolved t) := by
  by_cases hs : s = .allTerm
  · subst hs
    rw [Term.allTerm_andTerm]
    rfl
  by_cases ht : t = .allTerm
  · subst ht
    rw [Term.andTerm_allTerm, show hasAncestorDescendant resolved .allTerm = false from rfl,
      Bool.or_false]
  rw [Term.andTerm_of_ne hs ht]
  rfl

/-- A walk adds to `before_merge` only sides without an ancestor/descendant predicate. -/
def MergeSplit.CleanBefore (s : MergeSplit) : Prop :=
  hasAncestorDescendant resolved s.beforeMerge = false

theorem walkConjunction_cleanBefore {left right : Term}
    {walkLeft walkRight : MergeSplit → Except PyError MergeSplit}
    (hl : ∀ {s s'}, s.CleanBefore resolved → walkLeft s = .ok s' → s'.CleanBefore resolved)
    (hr : ∀ {s s'}, s.CleanBefore resolved → walkRight s = .ok s' → s'.CleanBefore resolved)
    {s s' : MergeSplit} (hs : s.CleanBefore resolved)
    (h : walkConjunction resolved left right walkLeft walkRight s = .ok s') :
    s'.CleanBefore resolved := by
  simp only [walkConjunction] at h
  split_ifs at h with hb hlad hrad
  · obtain ⟨s₁, h₁, h₂⟩ := Except.bind_eq_ok.mp h
    exact hr (hl hs h₁) h₂
  · have hright : hasAncestorDescendant resolved right = false :=
      Bool.eq_false_iff.mpr fun hr => hb ⟨hlad, hr⟩
    refine hl ?_ h
    simp only [MergeSplit.CleanBefore, hasAncestorDescendant_andTerm] at hs ⊢
    simp [hs, hright]
  · refine hr ?_ h
    simp only [MergeSplit.CleanBefore, hasAncestorDescendant_andTerm] at hs ⊢
    simp [hs, Bool.eq_false_iff.mpr hlad]

mutual

/-- **`walk_term` keeps ancestor/descendant predicates out of `before_merge`.** -/
theorem walkTerm_cleanBefore : ∀ (t : Term) {s s' : MergeSplit}, s.CleanBefore resolved →
    walkTerm resolved t s = .ok s' → s'.CleanBefore resolved
  | .combinedTerm left op right, s, s', hs, h => by
    by_cases hop : op = "or"
    · subst hop
      exact Except.ok.inj h ▸ hs
    · rw [walkTerm_combinedTerm, if_neg hop] at h
      exact walkConjunction_cleanBefore resolved (walkTerm_cleanBefore left)
        (walkTerm_cleanBefore right) hs h
  | .mergeTerm preFilter merge postFilter, s, s', hs, h => by
    rw [walkTerm_mergeTerm] at h
    exact walkMergeTerm_cleanBefore preFilter postFilter (walkTerm_cleanBefore preFilter) hs h
  | .allTerm, s, s', hs, h | .notTerm _, s, s', hs, h | .predicate .., s, s', hs, h
  | .idTerm _, s, s', hs, h | .isTerm _, s, s', hs, h | .functionTerm .., s, s', hs, h => by
    exact Except.ok.inj h ▸ hs
termination_by structural t => t

/-- The `MergeTerm` branch of `walk_term` keeps `before_merge` clean. -/
theorem walkMergeTerm_cleanBefore (preFilter : Term) : ∀ (postFilter : Option Term)
    {walkPre : MergeSplit → Except PyError MergeSplit}
    (_ : ∀ {s s'}, s.CleanBefore resolved → walkPre s = .ok s' → s'.CleanBefore resolved)
    {s s' : MergeSplit}, s.CleanBefore resolved →
    walkMergeTerm resolved preFilter postFilter walkPre s = .ok s' → s'.CleanBefore resolved
  | some postFilter, _, hpre, s, s', hs, h => by
    simp only [walkMergeTerm] at h
    exact walkConjunction_cleanBefore resolved hpre (walkTerm_cleanBefore postFilter) hs h
  | none, _, hpre, s, s', hs, h => by
    simp only [walkMergeTerm] at h
    exact hpre hs h
termination_by structural t => t

end

/-- **No ancestor/descendant predicate runs before the merge.** A part whose term has an
ancestor/descendant predicate is rewritten into a `MergeTerm` whose pre-filter has none. -/
theorem rewriteForAncestorsDescendants_preFilter {p p' : Part}
    (had : hasAncestorDescendant resolved p.term = true)
    (h : p.rewriteForAncestorsDescendants resolved = .ok p') :
    ∃ preFilter merge postFilter, p'.term = .mergeTerm preFilter merge postFilter ∧
      hasAncestorDescendant resolved preFilter = false := by
  rcases rewriteForAncestorsDescendants_ok resolved h with ⟨hn, -⟩ | ⟨-, s, hs, _, -, rfl⟩
  · simp [had] at hn
  · have hinit : MergeSplit.CleanBefore resolved ⟨.allTerm, .allTerm⟩ := rfl
    exact ⟨_, _, _, rfl, walkTerm_cleanBefore resolved _ hinit hs⟩

theorem rewriteForAncestorsDescendants_preFilter_vpcFilterPart :
    hasAncestorDescendant resolvedPropertyNames vpcFilterPart.term = true ∧
      ∃ p', vpcFilterPart.rewriteForAncestorsDescendants resolvedPropertyNames = .ok p' ∧
      ∃ preFilter merge postFilter, p'.term = .mergeTerm preFilter merge postFilter ∧
        hasAncestorDescendant resolvedPropertyNames preFilter = false :=
  ⟨rfl, _, rfl, rewriteForAncestorsDescendants_preFilter resolvedPropertyNames
    (show hasAncestorDescendant resolvedPropertyNames vpcFilterPart.term = true from rfl) rfl⟩

end

/-! ## Merges the rewrite loses track of

Both inputs filter on `ancestors.aws_vpc`, a kind outside `resolvedPropertyNames`, so the
rewrite lifts it into a merge.
-/

/-- A user merge `m` of the account, filtered after the merge on the merged data
(`m.reported.name`) and on an ancestor predicate. -/
def postFilterOnMerge : Part :=
  { term := .mergeTerm .allTerm [{ name := "m", query := Query.«by» (.kind "account") }]
      (some (.combinedTerm ((P.single "m.reported.name").eq (.str "prod")) "and"
        ((P.single "ancestors.aws_vpc.reported.name").eq (.str "v")))) }

/-- **A post-filter conjunct on a user merge moves before the merge.** The conjunct
`m.reported.name == "prod"` reads the data of the merge `m`, yet the rewrite makes it the
pre-filter, which runs before `m` is merged. -/
theorem rewrite_postFilterOnMerge :
    (postFilterOnMerge.rewriteForAncestorsDescendants resolvedPropertyNames).map (·.term) =
      .ok (.mergeTerm ((P.single "m.reported.name").eq (.str "prod"))
        [mergeQueryFor "ancestors" "aws_vpc", { name := "m", query := Query.«by» (.kind "account") }]
        (some ((P.single "ancestors.aws_vpc.reported.name").eq (.str "v")))) :=
  rfl

/-- A filter on an ancestor id and-ed with a `MergeTerm` that carries a merge `m` and
filters on the same ancestor. -/
def ancestorFilterOnMerge : Part :=
  { term := .combinedTerm ((P.single "ancestors.aws_vpc.reported.id").isIn [.str "a"])
      "and" (.mergeTerm ((P.single "ancestors.aws_vpc.reported.name").eq (.str "v"))
        [{ name := "m", query := Query.«by» (.kind "account") }] none) }

/-- **A nested `MergeTerm` loses its merge queries.** The rewritten term is a `MergeTerm`
with the created merge only: the merge `m` is in neither its list nor any of its
subterms. -/
theorem rewrite_ancestorFilterOnMerge :
    (ancestorFilterOnMerge.rewriteForAncestorsDescendants resolvedPropertyNames).map (·.term) =
      .ok (.mergeTerm .allTerm [mergeQueryFor "ancestors" "aws_vpc"]
        (some (.combinedTerm ((P.single "ancestors.aws_vpc.reported.id").isIn [.str "a"])
          "and" ((P.single "ancestors.aws_vpc.reported.name").eq (.str "v"))))) :=
  rfl

end Resoto
