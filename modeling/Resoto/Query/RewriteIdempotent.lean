import Resoto.Query.RewriteSplit

/-!
# The ancestor/descendant rewrite is idempotent

A rewrite leaves a part with the term `MergeTerm(before, queries, after)`. A second rewrite
walks that term as the conjunction of its two filters:

* `before` has no ancestor/descendant predicate (`walkTerm_cleanBefore`), so it joins
  `before_merge` whole;
* `after` is an and-chain, grouped to the left, of the terms the first walk kept whole
  (`AfterChain`, `walkTerm_afterChain`), and a walk takes such a chain apart and puts it
  back together term by term (`walkTerm_afterChain_self`).

The second walk so ends where the first one did, finds the same predicates, and lifting the
created merge queries over `queries` again changes nothing (`liftedMerges_liftedMerges`).
-/

namespace Resoto

section

variable (resolved : List String)

/-! ## What a walk keeps whole -/

/-- `walk_term` adds `t` to `after_merge` whole: `t` is neither a `MergeTerm` nor a
`CombinedTerm` other than an `or`, the two shapes the walk takes apart. -/
def Term.WalkedWhole : Term → Prop
  | .combinedTerm _ op _ => op = "or"
  | .mergeTerm .. => False
  | _ => True

theorem walkTerm_of_walkedWhole {t : Term} (ht : t.WalkedWhole) (s : MergeSplit) :
    walkTerm resolved t s = .ok { s with afterMerge := s.afterMerge.andTerm t } := by
  cases t with
  | combinedTerm left op right => rw [walkTerm_combinedTerm, if_pos (show op = "or" from ht)]
  | mergeTerm => exact ht.elim
  | _ => rfl

/-- The `after_merge` a walk leaves: an and-chain, grouped to the left, of terms the walk
kept whole, each with an ancestor/descendant predicate. -/
inductive AfterChain : Term → Prop
  | single {t : Term} : t.WalkedWhole → hasAncestorDescendant resolved t = true → AfterChain t
  | snoc {c t : Term} : AfterChain c → t.WalkedWhole → hasAncestorDescendant resolved t = true →
      AfterChain (.combinedTerm c "and" t)

variable {resolved}

theorem ne_allTerm_of_hasAncestorDescendant {t : Term}
    (h : hasAncestorDescendant resolved t = true) : t ≠ .allTerm := by
  rintro rfl
  exact Bool.false_ne_true h

theorem AfterChain.hasAncestorDescendant_eq {c : Term} (h : AfterChain resolved c) :
    hasAncestorDescendant resolved c = true := by
  cases h with
  | single _ had => exact had
  | snoc _ _ had => exact (Bool.or_eq_true _ _).mpr (.inr had)

theorem AfterChain.ne_allTerm {c : Term} (h : AfterChain resolved c) : c ≠ .allTerm :=
  ne_allTerm_of_hasAncestorDescendant h.hasAncestorDescendant_eq

/-- The `after_merge` of a walk so far: still `AllTerm`, or a chain. -/
def MergeSplit.AfterChained (resolved : List String) (s : MergeSplit) : Prop :=
  s.afterMerge = .allTerm ∨ AfterChain resolved s.afterMerge

theorem afterChain_andTerm {a t : Term} (ha : a = .allTerm ∨ AfterChain resolved a)
    (ht : t.WalkedWhole) (had : hasAncestorDescendant resolved t = true) :
    AfterChain resolved (a.andTerm t) := by
  rcases ha with rfl | ha
  · rw [Term.allTerm_andTerm]
    exact .single ht had
  · rw [Term.andTerm_of_ne ha.ne_allTerm (ne_allTerm_of_hasAncestorDescendant had)]
    exact .snoc ha ht had

/-! ## Every walk leaves a chain -/

/-- The conjunction branch: a side is walked only when it has an ancestor/descendant
predicate, and `before_merge` is not part of the shape. -/
theorem walkConjunction_afterChain {left right : Term}
    {walkLeft walkRight : MergeSplit → Except PyError MergeSplit}
    (hl : hasAncestorDescendant resolved left = true → ∀ {s s'}, s.AfterChained resolved →
      walkLeft s = .ok s' → AfterChain resolved s'.afterMerge)
    (hr : hasAncestorDescendant resolved right = true → ∀ {s s'}, s.AfterChained resolved →
      walkRight s = .ok s' → AfterChain resolved s'.afterMerge)
    {s s' : MergeSplit} (hs : s.AfterChained resolved)
    (h : walkConjunction resolved left right walkLeft walkRight s = .ok s') :
    AfterChain resolved s'.afterMerge := by
  simp only [walkConjunction] at h
  split_ifs at h with hb hlad hrad
  · obtain ⟨s₁, h₁, h₂⟩ := Except.bind_eq_ok.mp h
    exact hr hb.2 (.inr (hl hb.1 hs h₁)) h₂
  · refine hl hlad ?_ h
    exact hs
  · refine hr hrad ?_ h
    exact hs

mutual

/-- **A walk of a term with an ancestor/descendant predicate leaves a chain.** -/
theorem walkTerm_afterChain : ∀ (t : Term), hasAncestorDescendant resolved t = true →
    ∀ {s s' : MergeSplit}, s.AfterChained resolved → walkTerm resolved t s = .ok s' →
      AfterChain resolved s'.afterMerge
  | .combinedTerm left op right, had, s, s', hs, h => by
    by_cases hop : op = "or"
    · subst hop
      exact Except.ok.inj h ▸ afterChain_andTerm hs rfl had
    · rw [walkTerm_combinedTerm, if_neg hop] at h
      exact walkConjunction_afterChain (walkTerm_afterChain left) (walkTerm_afterChain right) hs h
  | .mergeTerm preFilter merge postFilter, had, s, s', hs, h => by
    rw [walkTerm_mergeTerm] at h
    exact walkMergeTerm_afterChain preFilter postFilter had (walkTerm_afterChain preFilter) hs h
  | .allTerm, had, _, _, _, _ => absurd had Bool.false_ne_true
  | .notTerm _, had, s, s', hs, h | .predicate .., had, s, s', hs, h
  | .idTerm _, had, s, s', hs, h | .isTerm _, had, s, s', hs, h
  | .functionTerm .., had, s, s', hs, h => by
    exact Except.ok.inj h ▸ afterChain_andTerm hs trivial had
termination_by structural t => t

/-- The `MergeTerm` branch: its pre-filter alone, or with its post-filter as a conjunction. -/
theorem walkMergeTerm_afterChain (preFilter : Term) : ∀ (postFilter : Option Term)
    {walkPre : MergeSplit → Except PyError MergeSplit},
    (hasAncestorDescendant resolved preFilter || hasAncestorDescendantOpt resolved postFilter) =
      true →
    (hasAncestorDescendant resolved preFilter = true → ∀ {s s'}, s.AfterChained resolved →
      walkPre s = .ok s' → AfterChain resolved s'.afterMerge) →
    ∀ {s s' : MergeSplit}, s.AfterChained resolved →
      walkMergeTerm resolved preFilter postFilter walkPre s = .ok s' →
      AfterChain resolved s'.afterMerge
  | some postFilter, _, _, hpre, s, s', hs, h => by
    simp only [walkMergeTerm] at h
    exact walkConjunction_afterChain hpre (walkTerm_afterChain postFilter) hs h
  | none, _, had, hpre, s, s', hs, h => by
    simp only [walkMergeTerm] at h
    exact hpre (by simpa [hasAncestorDescendantOpt] using had) hs h
termination_by structural t => t

end

/-- **A chain walks back to itself**, whatever `before_merge` holds. -/
theorem walkTerm_afterChain_self {c : Term} (hc : AfterChain resolved c) (b : Term) :
    walkTerm resolved c ⟨b, .allTerm⟩ = .ok ⟨b, c⟩ := by
  induction hc with
  | single ht _ => simp [walkTerm_of_walkedWhole resolved ht]
  | @snoc c t hc ht had ih =>
    have hcad := hc.hasAncestorDescendant_eq
    simp only [walkTerm_combinedTerm, show ("and" = "or") = False by decide, if_false, walkConjunction, hcad,
      had, and_self, if_true, ih, Except.ok_bind, walkTerm_of_walkedWhole resolved ht,
      Term.andTerm_of_ne hc.ne_allTerm (ne_allTerm_of_hasAncestorDescendant had)]

/-! ## Lifting the merge queries again -/

/-- Lifting the created merge queries over merge queries that already hold them changes
nothing. -/
theorem liftedMerges_liftedMerges (existing : List MergeQuery) (kinds : List (String × String)) :
    liftedMerges (liftedMerges existing kinds) kinds = liftedMerges existing kinds := by
  simp only [liftedMerges]
  refine congrArg PyDict.values (PyDict.merge_ofList_merge ?_ (PyDict.keyedBy_ofList _ existing))
  refine PyDict.keyedBy_foldl_insert (fun e he => ?_) (fun _ h => by simp at h)
  obtain ⟨⟨ancDec, kind⟩, -, rfl⟩ := List.mem_map.mp he
  rfl

/-! ## The rewrite -/

/-- **`rewrite_for_ancestors_descendants` is idempotent**: a second rewrite returns what the
first one did, pre-filter, post-filter and merge list alike, and an error of the first is
the result of both. -/
theorem rewriteForAncestorsDescendants_idempotent (p : Part) :
    (p.rewriteForAncestorsDescendants resolved >>= (·.rewriteForAncestorsDescendants resolved)) =
      p.rewriteForAncestorsDescendants resolved := by
  cases h : p.rewriteForAncestorsDescendants resolved with
  | error e => rfl
  | ok p' =>
    show p'.rewriteForAncestorsDescendants resolved = .ok p'
    rcases rewriteForAncestorsDescendants_ok resolved h with ⟨_, rfl⟩ | ⟨had, s, hs, predicates, hp, rfl⟩
    · exact h
    have hchain : AfterChain resolved s.afterMerge := walkTerm_afterChain p.term had (.inl rfl) hs
    have hclean : hasAncestorDescendant resolved s.beforeMerge = false :=
      walkTerm_cleanBefore resolved p.term (show MergeSplit.CleanBefore resolved ⟨.allTerm, .allTerm⟩ from rfl) hs
    have hwalk : walkTerm resolved (.combinedTerm s.beforeMerge "and" s.afterMerge)
        ⟨.allTerm, .allTerm⟩ = .ok s := by
      simp only [walkTerm_combinedTerm, show ("and" = "or") = False by decide, if_false, walkConjunction,
        hclean, hchain.hasAncestorDescendant_eq, Bool.false_eq_true, false_and, if_false, if_true,
        Term.allTerm_andTerm]
      exact walkTerm_afterChain_self hchain s.beforeMerge
    have hmerged : hasAncestorDescendant resolved
        (.mergeTerm s.beforeMerge (liftedMerges p.term.merges predicates.keys) (some s.afterMerge)) :=
      (Bool.or_eq_true _ _).mpr (.inr hchain.hasAncestorDescendant_eq)
    rw [Part.rewriteForAncestorsDescendants, if_pos hmerged, walkTerm_mergeTerm_some, hwalk]
    simp [hp, Term.merges, liftedMerges_liftedMerges]

end

end Resoto
