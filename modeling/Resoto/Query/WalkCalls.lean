import Resoto.Query.RewriteErrors

/-!
# The precondition of `walk_term`

`walk_term` starts with the comment "precondition: this method is only called with a term
that has ancestor/descendant", and raises `NotImplementedError("Logic unsound. …")` in
the one branch that would break it: a conjunction neither side of which has such a
predicate. `walkCalls` lists the terms `walk_term` is called on in a walk, and:

* each call passes the precondition on to the calls it makes (`walkCalls_hasAncestorDescendant`):
  the conjunction branch walks only the sides with a predicate, and a `MergeTerm` is walked
  as `CombinedTerm(pre_filter, "and", post_filter)`, which has one exactly when the merge
  term has;
* the walk raises only at a call that breaks it (`walkTerm_error`);
* `has_ancestor_descendant(t)` holds iff `ancestor_descendant_predicates(t)` is non-empty
  (`hasAncestorDescendant_iff_ne_nil`), and the rewrite starts a walk only on such a term.
-/

namespace Resoto

section

variable (resolved : List String)

/-! ## Predicates -/

mutual

/-- A term with an ancestor/descendant predicate lists one. -/
theorem ancestorDescendantPredicates_ne_nil : ∀ (t : Term),
    hasAncestorDescendant resolved t = true → ancestorDescendantPredicates resolved t ≠ []
  | .predicate name _ _ _, h => by
    show (if isAncestorDescendant resolved name then [name] else []) ≠ []
    rw [if_pos (show isAncestorDescendant resolved name = true from h)]
    exact List.cons_ne_nil _ _
  | .combinedTerm left _ right, h => by
    show ancestorDescendantPredicates resolved left ++ ancestorDescendantPredicates resolved right ≠ []
    rw [Ne, List.append_eq_nil, not_and_or]
    exact (Bool.or_eq_true _ _).mp h |>.imp (ancestorDescendantPredicates_ne_nil left)
      (ancestorDescendantPredicates_ne_nil right)
  | .mergeTerm preFilter _ postFilter, h => by
    show ancestorDescendantPredicates resolved preFilter ++
      ancestorDescendantPredicatesOpt resolved postFilter ≠ []
    rw [Ne, List.append_eq_nil, not_and_or]
    exact (Bool.or_eq_true _ _).mp h |>.imp (ancestorDescendantPredicates_ne_nil preFilter)
      (ancestorDescendantPredicatesOpt_ne_nil postFilter)
  | .notTerm term, h => ancestorDescendantPredicates_ne_nil term h
  | .allTerm, h | .idTerm _, h | .isTerm _, h | .functionTerm .., h => absurd h Bool.false_ne_true
termination_by structural t => t

theorem ancestorDescendantPredicatesOpt_ne_nil : ∀ (t : Option Term),
    hasAncestorDescendantOpt resolved t = true → ancestorDescendantPredicatesOpt resolved t ≠ []
  | some t, h => ancestorDescendantPredicates_ne_nil t h
  | none, h => absurd h Bool.false_ne_true
termination_by structural t => t

end

theorem hasAncestorDescendant_iff_ne_nil (t : Term) :
    hasAncestorDescendant resolved t = true ↔ ancestorDescendantPredicates resolved t ≠ [] :=
  ⟨ancestorDescendantPredicates_ne_nil resolved t, fun h => by
    by_contra had
    exact h (ancestorDescendantPredicates_eq_nil resolved t (Bool.eq_false_iff.mpr had))⟩

/-! ## The calls of a walk -/

/-- The calls the conjunction branch of `walk_term` makes, given those of the walks of its
sides: of both sides, of the one side with an ancestor/descendant predicate, or none. -/
def conjunctionCalls (left right : Term) (leftCalls rightCalls : List Term) : List Term :=
  let leftHasAd := hasAncestorDescendant resolved left
  let rightHasAd := hasAncestorDescendant resolved right
  if leftHasAd ∧ rightHasAd then leftCalls ++ rightCalls
  else if leftHasAd then leftCalls
  else if rightHasAd then rightCalls
  else []

mutual

/-- The terms `walk_term` is called on in a walk of `t` that raises nothing, `t` first, in
the order of the calls. -/
def walkCalls : Term → List Term
  | .combinedTerm left op right =>
    .combinedTerm left op right ::
      if op = "or" then [] else conjunctionCalls resolved left right (walkCalls left) (walkCalls right)
  | .mergeTerm preFilter merge postFilter =>
    .mergeTerm preFilter merge postFilter :: mergeCalls preFilter postFilter (walkCalls preFilter)
  | term => [term]
termination_by structural t => t

/-- The calls of the `MergeTerm` branch of `walk_term`, given those of the walk of its
pre-filter: `walk_term(CombinedTerm(pre_filter, "and", post_filter))` and its calls, or
the walk of the pre-filter. -/
def mergeCalls (preFilter : Term) : Option Term → List Term → List Term
  | some postFilter, preCalls =>
    .combinedTerm preFilter "and" postFilter ::
      conjunctionCalls resolved preFilter postFilter preCalls (walkCalls postFilter)
  | none, preCalls => preCalls
termination_by structural t => t

end

/-- The calls of `walk_term` a rewrite of `p` makes: a walk of `p.term` when it has an
ancestor/descendant predicate, none otherwise. -/
def Part.rewriteCalls (p : Part) : List Term :=
  if hasAncestorDescendant resolved p.term then walkCalls resolved p.term else []

theorem mem_conjunctionCalls {left right u : Term} {leftCalls rightCalls : List Term}
    (h : u ∈ conjunctionCalls resolved left right leftCalls rightCalls) :
    (hasAncestorDescendant resolved left = true ∧ u ∈ leftCalls) ∨
      (hasAncestorDescendant resolved right = true ∧ u ∈ rightCalls) := by
  simp only [conjunctionCalls] at h
  split_ifs at h with hb hl hr
  · exact (List.mem_append.mp h).imp (⟨hb.1, ·⟩) (⟨hb.2, ·⟩)
  · exact .inl ⟨hl, h⟩
  · exact .inr ⟨hr, h⟩
  · exact absurd h (List.not_mem_nil u)

theorem mem_conjunctionCalls_left {left right u : Term} {leftCalls rightCalls : List Term}
    (hl : hasAncestorDescendant resolved left = true) (hu : u ∈ leftCalls) :
    u ∈ conjunctionCalls resolved left right leftCalls rightCalls := by
  simp only [conjunctionCalls, hl, true_and, if_true]
  split_ifs
  exacts [List.mem_append_left _ hu, hu]

theorem mem_conjunctionCalls_right {left right u : Term} {leftCalls rightCalls : List Term}
    (hr : hasAncestorDescendant resolved right = true) (hu : u ∈ rightCalls) :
    u ∈ conjunctionCalls resolved left right leftCalls rightCalls := by
  simp only [conjunctionCalls, hr, and_true, if_true]
  split_ifs
  exacts [List.mem_append_right _ hu, hu]

/-! ## Each call passes the precondition on -/

mutual

/-- **Every call of a walk from a term with an ancestor/descendant predicate is on such a
term.** -/
theorem walkCalls_hasAncestorDescendant : ∀ (t : Term), hasAncestorDescendant resolved t = true →
    ∀ u ∈ walkCalls resolved t, hasAncestorDescendant resolved u = true
  | .combinedTerm left op right, had, u, hu => by
    rcases List.mem_cons.mp hu with rfl | hu
    · exact had
    split_ifs at hu
    · exact absurd hu (List.not_mem_nil u)
    rcases mem_conjunctionCalls resolved hu with ⟨hl, hu⟩ | ⟨hr, hu⟩
    exacts [walkCalls_hasAncestorDescendant left hl u hu, walkCalls_hasAncestorDescendant right hr u hu]
  | .mergeTerm preFilter merge postFilter, had, u, hu => by
    rcases List.mem_cons.mp hu with rfl | hu
    · exact had
    exact mergeCalls_hasAncestorDescendant preFilter postFilter had
      (walkCalls_hasAncestorDescendant preFilter) u hu
  | .allTerm, had, u, hu | .notTerm _, had, u, hu | .predicate .., had, u, hu
  | .idTerm _, had, u, hu | .isTerm _, had, u, hu | .functionTerm .., had, u, hu => by
    rw [List.mem_singleton.mp hu]
    exact had
termination_by structural t => t

theorem mergeCalls_hasAncestorDescendant (preFilter : Term) : ∀ (postFilter : Option Term)
    {preCalls : List Term},
    (hasAncestorDescendant resolved preFilter || hasAncestorDescendantOpt resolved postFilter) =
      true →
    (hasAncestorDescendant resolved preFilter = true →
      ∀ u ∈ preCalls, hasAncestorDescendant resolved u = true) →
    ∀ u ∈ mergeCalls resolved preFilter postFilter preCalls, hasAncestorDescendant resolved u = true
  | some postFilter, _, had, hpre, u, hu => by
    rcases List.mem_cons.mp hu with rfl | hu
    · exact had
    rcases mem_conjunctionCalls resolved hu with ⟨hl, hu⟩ | ⟨hr, hu⟩
    exacts [hpre hl u hu, walkCalls_hasAncestorDescendant postFilter hr u hu]
  | none, _, had, hpre, u, hu => hpre (by simpa [hasAncestorDescendantOpt] using had) u hu
termination_by structural t => t

end

/-! ## The walk raises only where the precondition breaks -/

/-- The conjunction branch raises its own `NotImplementedError` when neither side has an
ancestor/descendant predicate, and otherwise only what the walk of a side with one raises. -/
theorem walkConjunction_error {left right : Term}
    {walkLeft walkRight : MergeSplit → Except PyError MergeSplit} {s : MergeSplit} {e : PyError}
    (h : walkConjunction resolved left right walkLeft walkRight s = .error e) :
    (hasAncestorDescendant resolved left = true ∧ ∃ s', walkLeft s' = .error e) ∨
      (hasAncestorDescendant resolved right = true ∧ ∃ s', walkRight s' = .error e) ∨
      (hasAncestorDescendant resolved left = false ∧ hasAncestorDescendant resolved right = false ∧
        e = .notImplementedError "Logic unsound. This case should not happen!") := by
  simp only [walkConjunction] at h
  split_ifs at h with hb hl hr
  · cases hwl : walkLeft s with
    | error e' =>
      rw [hwl] at h
      exact .inl ⟨hb.1, s, hwl.trans h⟩
    | ok s₁ =>
      rw [hwl, Except.ok_bind] at h
      exact .inr (.inl ⟨hb.2, s₁, h⟩)
  · exact .inl ⟨hl, _, h⟩
  · exact .inr (.inl ⟨hr, _, h⟩)
  · cases h
    exact .inr (.inr ⟨Bool.eq_false_iff.mpr hl, Bool.eq_false_iff.mpr hr, rfl⟩)

mutual

/-- **`walk_term` raises only at a call that breaks its precondition**, and then the
`NotImplementedError` of the conjunction branch. -/
theorem walkTerm_error : ∀ (t : Term) {s : MergeSplit} {e : PyError},
    walkTerm resolved t s = .error e →
      e = .notImplementedError "Logic unsound. This case should not happen!" ∧
      ∃ u ∈ walkCalls resolved t, hasAncestorDescendant resolved u = false
  | .combinedTerm left op right, s, e, h => by
    by_cases hop : op = "or"
    · rw [walkTerm_combinedTerm, if_pos hop] at h
      cases h
    rw [walkTerm_combinedTerm, if_neg hop] at h
    have hcalls : walkCalls resolved (.combinedTerm left op right) = .combinedTerm left op right ::
        conjunctionCalls resolved left right (walkCalls resolved left) (walkCalls resolved right) :=
      congrArg (List.cons _) (if_neg hop)
    rw [hcalls]
    rcases walkConjunction_error resolved h with ⟨hl, _, he⟩ | ⟨hr, _, he⟩ | ⟨hl, hr, rfl⟩
    · obtain ⟨rfl, u, hu, hnu⟩ := walkTerm_error left he
      exact ⟨rfl, u, List.mem_cons_of_mem _ (mem_conjunctionCalls_left resolved hl hu), hnu⟩
    · obtain ⟨rfl, u, hu, hnu⟩ := walkTerm_error right he
      exact ⟨rfl, u, List.mem_cons_of_mem _ (mem_conjunctionCalls_right resolved hr hu), hnu⟩
    · exact ⟨rfl, _, List.mem_cons_self _ _, by rw [show hasAncestorDescendant resolved
        (.combinedTerm left op right) = (hasAncestorDescendant resolved left ||
          hasAncestorDescendant resolved right) from rfl, hl, hr, Bool.or_false]⟩
  | .mergeTerm preFilter merge postFilter, s, e, h => by
    rw [walkTerm_mergeTerm] at h
    obtain ⟨he, u, hu, hnu⟩ := walkMergeTerm_error preFilter postFilter (walkTerm_error preFilter) h
    exact ⟨he, u, List.mem_cons_of_mem _ hu, hnu⟩
  | .allTerm, _, _, h | .notTerm _, _, _, h | .predicate .., _, _, h | .idTerm _, _, _, h
  | .isTerm _, _, _, h | .functionTerm .., _, _, h => nomatch h
termination_by structural t => t

/-- The `MergeTerm` branch raises only at a call of its walk that breaks the precondition. -/
theorem walkMergeTerm_error (preFilter : Term) : ∀ (postFilter : Option Term)
    {walkPre : MergeSplit → Except PyError MergeSplit},
    (∀ {s e}, walkPre s = .error e →
      e = .notImplementedError "Logic unsound. This case should not happen!" ∧
      ∃ u ∈ walkCalls resolved preFilter, hasAncestorDescendant resolved u = false) →
    ∀ {s : MergeSplit} {e : PyError}, walkMergeTerm resolved preFilter postFilter walkPre s = .error e →
      e = .notImplementedError "Logic unsound. This case should not happen!" ∧
      ∃ u ∈ mergeCalls resolved preFilter postFilter (walkCalls resolved preFilter),
        hasAncestorDescendant resolved u = false
  | some postFilter, _, hpre, s, e, h => by
    simp only [walkMergeTerm] at h
    rcases walkConjunction_error resolved h with ⟨hl, _, he⟩ | ⟨hr, _, he⟩ | ⟨hl, hr, rfl⟩
    · obtain ⟨rfl, u, hu, hnu⟩ := hpre he
      exact ⟨rfl, u, List.mem_cons_of_mem _ (mem_conjunctionCalls_left resolved hl hu), hnu⟩
    · obtain ⟨rfl, u, hu, hnu⟩ := walkTerm_error postFilter he
      exact ⟨rfl, u, List.mem_cons_of_mem _ (mem_conjunctionCalls_right resolved hr hu), hnu⟩
    · exact ⟨rfl, _, List.mem_cons_self _ _, by rw [show hasAncestorDescendant resolved
        (.combinedTerm preFilter "and" postFilter) = (hasAncestorDescendant resolved preFilter ||
          hasAncestorDescendant resolved postFilter) from rfl, hl, hr, Bool.or_false]⟩
  | none, _, hpre, s, e, h => hpre h
termination_by structural t => t

end

/-! ## The rewrite -/

/-- `group_by` raises only what its key function raises on an item. -/
theorem groupBy_error {α K : Type} [DecidableEq K] {f : α → Except PyError K} {xs : List α}
    {e : PyError} (h : groupBy f xs = .error e) : ∃ x ∈ xs, f x = .error e := by
  unfold groupBy at h
  generalize (∅ : PyDict K (List α)) = d at h
  induction xs generalizing d with
  | nil => cases h
  | cons y ys ih =>
    rw [List.foldlM_cons] at h
    cases hy : f y with
    | error e' =>
      rw [hy] at h
      have h' : (Except.error e' : Except PyError (PyDict K (List α))) = .error e := h
      exact ⟨y, List.mem_cons_self y ys, by rw [hy, Except.error.inj h']⟩
    | ok k =>
      rw [hy] at h
      obtain ⟨x, hx, hfx⟩ := ih (d.appendAt k y) h
      exact ⟨x, List.mem_cons_of_mem y hx, hfx⟩

/-- **The "Logic unsound" branch of `walk_term` is unreachable.** `has_ancestor_descendant(t)`
holds iff `ancestor_descendant_predicates(t)` is non-empty; every call of a walk from a term
with an ancestor/descendant predicate is on such a term, and a walk raises only at a call
on a term without one; so the calls of a rewrite all have one, and no rewrite of any part
raises a `NotImplementedError`. -/
theorem rewriteForAncestorsDescendants_walkCalls :
    (∀ t, hasAncestorDescendant resolved t = true ↔ ancestorDescendantPredicates resolved t ≠ []) ∧
    (∀ t, hasAncestorDescendant resolved t = true →
      ∀ u ∈ walkCalls resolved t, hasAncestorDescendant resolved u = true) ∧
    (∀ t s e, walkTerm resolved t s = .error e →
      ∃ u ∈ walkCalls resolved t, hasAncestorDescendant resolved u = false) ∧
    ∀ p : Part, (∀ u ∈ p.rewriteCalls resolved, hasAncestorDescendant resolved u = true) ∧
      ∀ m, p.rewriteForAncestorsDescendants resolved ≠ .error (.notImplementedError m) := by
  refine ⟨hasAncestorDescendant_iff_ne_nil resolved, walkCalls_hasAncestorDescendant resolved,
    fun t s e h => (walkTerm_error resolved t h).2, fun p => ⟨fun u hu => ?_, fun m h => ?_⟩⟩
  · unfold Part.rewriteCalls at hu
    split_ifs at hu with had
    · exact walkCalls_hasAncestorDescendant resolved p.term had u hu
    · exact absurd hu (List.not_mem_nil u)
  · unfold Part.rewriteForAncestorsDescendants at h
    split_ifs at h with had
    · obtain ⟨s, hs⟩ := walkTerm_ok resolved p.term had ⟨.allTerm, .allTerm⟩
      rw [hs, Except.ok_bind] at h
      cases hg : groupBy namePredicate (ancestorDescendantPredicates resolved s.afterMerge) with
      | error e =>
        rw [hg] at h
        cases h
        obtain ⟨name, -, hname⟩ := groupBy_error hg
        obtain ⟨got, -, he⟩ := namePredicate_error hname
        cases he
      | ok predicates =>
        rw [hg] at h
        cases h
    · cases h

end

end Resoto
