import Resoto.Query.RewriteSplit

/-!
# Where the ancestor/descendant rewrite fails

A rewrite runs three fallible steps: `walk_term`, `group_by(name_predicate, …)` over the
predicates left in `after_merge`, and `merge_query_for`. This module follows a malformed
predicate name through them:

* a walk of a term with an ancestor/descendant predicate never fails (`walkTerm_ok`);
* it keeps every ancestor/descendant predicate of the term in `after_merge`
  (`walkTerm_ancestorDescendantPredicates`);
* `group_by` fails with the first exception of its key function (`groupBy_error_of_mem`);
* `name_predicate` raises the unpacking `ValueError` of `anc_dec, kind, _ = …` on a name
  of fewer than three segments (`namePredicate_error_of_count`).

The `try … except ValueError` that builds the structured `AttributeError` wraps
`merge_query_for` only, which `name_predicate` runs before: a malformed name escapes as a
bare `ValueError` (`rewriteForAncestorsDescendants_malformed`).
-/

namespace Resoto

section

variable (resolved : List String)

/-! ## Predicates and the accumulators -/

@[simp] theorem ancestorDescendantPredicates_allTerm :
    ancestorDescendantPredicates resolved .allTerm = [] := rfl

@[simp] theorem ancestorDescendantPredicates_andTerm (s t : Term) :
    ancestorDescendantPredicates resolved (s.andTerm t) =
      ancestorDescendantPredicates resolved s ++ ancestorDescendantPredicates resolved t := by
  by_cases hs : s = .allTerm
  · simp [hs]
  by_cases ht : t = .allTerm
  · simp [ht]
  rw [Term.andTerm_of_ne hs ht]
  rfl

mutual

/-- A term without an ancestor/descendant predicate lists none. -/
theorem ancestorDescendantPredicates_eq_nil : ∀ (t : Term),
    hasAncestorDescendant resolved t = false → ancestorDescendantPredicates resolved t = []
  | .predicate name _ _ _, h => by
    show (if isAncestorDescendant resolved name then [name] else []) = []
    rw [show isAncestorDescendant resolved name = false from h, if_neg Bool.false_ne_true]
  | .combinedTerm left _ right, h => by
    obtain ⟨hl, hr⟩ := Bool.or_eq_false_iff.mp h
    show ancestorDescendantPredicates resolved left ++ ancestorDescendantPredicates resolved right = []
    rw [ancestorDescendantPredicates_eq_nil left hl, ancestorDescendantPredicates_eq_nil right hr]
    rfl
  | .mergeTerm preFilter _ postFilter, h => by
    obtain ⟨hpre, hpost⟩ := Bool.or_eq_false_iff.mp h
    show ancestorDescendantPredicates resolved preFilter ++
      ancestorDescendantPredicatesOpt resolved postFilter = []
    rw [ancestorDescendantPredicates_eq_nil preFilter hpre,
      ancestorDescendantPredicatesOpt_eq_nil postFilter hpost]
    rfl
  | .notTerm term, h => ancestorDescendantPredicates_eq_nil term h
  | .allTerm, _ | .idTerm _, _ | .isTerm _, _ | .functionTerm .., _ => rfl
termination_by structural t => t

theorem ancestorDescendantPredicatesOpt_eq_nil : ∀ (t : Option Term),
    hasAncestorDescendantOpt resolved t = false → ancestorDescendantPredicatesOpt resolved t = []
  | some t, h => ancestorDescendantPredicates_eq_nil t h
  | none, _ => rfl
termination_by structural t => t

end

theorem hasAncestorDescendant_of_mem {t : Term} {name : String}
    (h : name ∈ ancestorDescendantPredicates resolved t) : hasAncestorDescendant resolved t = true := by
  by_contra had
  rw [ancestorDescendantPredicates_eq_nil resolved t (Bool.eq_false_iff.mpr had)] at h
  exact List.not_mem_nil name h

/-! ## The walk succeeds -/

theorem walkConjunction_ok {left right : Term}
    {walkLeft walkRight : MergeSplit → Except PyError MergeSplit}
    (hl : hasAncestorDescendant resolved left = true → ∀ s, ∃ s', walkLeft s = .ok s')
    (hr : hasAncestorDescendant resolved right = true → ∀ s, ∃ s', walkRight s = .ok s')
    (had : (hasAncestorDescendant resolved left || hasAncestorDescendant resolved right) = true)
    (s : MergeSplit) : ∃ s', walkConjunction resolved left right walkLeft walkRight s = .ok s' := by
  simp only [walkConjunction]
  split_ifs with hb hlad hrad
  · obtain ⟨s₁, h₁⟩ := hl hb.1 s
    obtain ⟨s₂, h₂⟩ := hr hb.2 s₁
    exact ⟨s₂, by rw [h₁, Except.ok_bind, h₂]⟩
  · exact hl hlad _
  · exact hr hrad _
  · simp_all

mutual

/-- **A walk of a term with an ancestor/descendant predicate succeeds**: the
`NotImplementedError` of `walk_term` is out of reach. -/
theorem walkTerm_ok : ∀ (t : Term), hasAncestorDescendant resolved t = true →
    ∀ s, ∃ s', walkTerm resolved t s = .ok s'
  | .combinedTerm left op right, had, s => by
    by_cases hop : op = "or"
    · rw [walkTerm_combinedTerm, if_pos hop]
      exact ⟨_, rfl⟩
    · rw [walkTerm_combinedTerm, if_neg hop]
      exact walkConjunction_ok resolved (walkTerm_ok left) (walkTerm_ok right) had s
  | .mergeTerm preFilter _ postFilter, had, s => by
    rw [walkTerm_mergeTerm]
    exact walkMergeTerm_ok preFilter postFilter had (walkTerm_ok preFilter) s
  | .allTerm, _, s | .notTerm _, _, s | .predicate .., _, s | .idTerm _, _, s
  | .isTerm _, _, s | .functionTerm .., _, s => ⟨_, rfl⟩
termination_by structural t => t

theorem walkMergeTerm_ok (preFilter : Term) : ∀ (postFilter : Option Term)
    {walkPre : MergeSplit → Except PyError MergeSplit},
    (hasAncestorDescendant resolved preFilter || hasAncestorDescendantOpt resolved postFilter) =
      true →
    (hasAncestorDescendant resolved preFilter = true → ∀ s, ∃ s', walkPre s = .ok s') →
    ∀ s, ∃ s', walkMergeTerm resolved preFilter postFilter walkPre s = .ok s'
  | some postFilter, _, had, hpre, s => by
    simp only [walkMergeTerm]
    exact walkConjunction_ok resolved hpre (walkTerm_ok postFilter) had s
  | none, _, had, hpre, s => by
    simp only [walkMergeTerm]
    exact hpre (by simpa [hasAncestorDescendantOpt] using had) s
termination_by structural t => t

end

/-! ## The walk keeps the predicates -/

theorem walkConjunction_ancestorDescendantPredicates {left right : Term}
    {walkLeft walkRight : MergeSplit → Except PyError MergeSplit}
    (hl : ∀ {s s'}, walkLeft s = .ok s' → ∀ n, n ∈ ancestorDescendantPredicates resolved s.afterMerge ++
      ancestorDescendantPredicates resolved left → n ∈ ancestorDescendantPredicates resolved s'.afterMerge)
    (hr : ∀ {s s'}, walkRight s = .ok s' → ∀ n, n ∈ ancestorDescendantPredicates resolved s.afterMerge ++
      ancestorDescendantPredicates resolved right → n ∈ ancestorDescendantPredicates resolved s'.afterMerge)
    {s s' : MergeSplit} (h : walkConjunction resolved left right walkLeft walkRight s = .ok s') (n : String)
    (hn : n ∈ ancestorDescendantPredicates resolved s.afterMerge ++
      (ancestorDescendantPredicates resolved left ++ ancestorDescendantPredicates resolved right)) :
    n ∈ ancestorDescendantPredicates resolved s'.afterMerge := by
  simp only [walkConjunction] at h
  split_ifs at h with hb hlad hrad
  · obtain ⟨s₁, h₁, h₂⟩ := Except.bind_eq_ok.mp h
    rw [← List.append_assoc, List.mem_append] at hn
    exact hr h₂ n (List.mem_append.mpr (hn.imp_left (hl h₁ n)))
  · have hright := ancestorDescendantPredicates_eq_nil resolved right
      (Bool.eq_false_iff.mpr fun hr => hb ⟨hlad, hr⟩)
    exact hl h n (by simpa [hright] using hn)
  · have hleft := ancestorDescendantPredicates_eq_nil resolved left (Bool.eq_false_iff.mpr hlad)
    exact hr h n (by simpa [hleft] using hn)

mutual

/-- **A walk keeps every ancestor/descendant predicate** of `after_merge` and of the term in
the `after_merge` it returns. -/
theorem walkTerm_ancestorDescendantPredicates : ∀ (t : Term) {s s' : MergeSplit},
    walkTerm resolved t s = .ok s' → ∀ n, n ∈ ancestorDescendantPredicates resolved s.afterMerge ++
      ancestorDescendantPredicates resolved t → n ∈ ancestorDescendantPredicates resolved s'.afterMerge
  | .combinedTerm left op right, s, s', h, n, hn => by
    by_cases hop : op = "or"
    · rw [walkTerm_combinedTerm, if_pos hop] at h
      obtain rfl := Except.ok.inj h
      simpa using hn
    · rw [walkTerm_combinedTerm, if_neg hop] at h
      exact walkConjunction_ancestorDescendantPredicates resolved
        (walkTerm_ancestorDescendantPredicates left) (walkTerm_ancestorDescendantPredicates right) h n hn
  | .mergeTerm preFilter merge postFilter, s, s', h, n, hn => by
    rw [walkTerm_mergeTerm] at h
    exact walkMergeTerm_ancestorDescendantPredicates preFilter postFilter
      (walkTerm_ancestorDescendantPredicates preFilter) h n hn
  | .allTerm, s, s', h, n, hn | .notTerm _, s, s', h, n, hn | .predicate .., s, s', h, n, hn
  | .idTerm _, s, s', h, n, hn | .isTerm _, s, s', h, n, hn | .functionTerm .., s, s', h, n, hn => by
    obtain rfl := Except.ok.inj h
    simpa using hn
termination_by structural t => t

theorem walkMergeTerm_ancestorDescendantPredicates (preFilter : Term) : ∀ (postFilter : Option Term)
    {walkPre : MergeSplit → Except PyError MergeSplit},
    (∀ {s s'}, walkPre s = .ok s' → ∀ n, n ∈ ancestorDescendantPredicates resolved s.afterMerge ++
      ancestorDescendantPredicates resolved preFilter →
        n ∈ ancestorDescendantPredicates resolved s'.afterMerge) →
    ∀ {s s' : MergeSplit}, walkMergeTerm resolved preFilter postFilter walkPre s = .ok s' →
      ∀ n, n ∈ ancestorDescendantPredicates resolved s.afterMerge ++
        (ancestorDescendantPredicates resolved preFilter ++
          ancestorDescendantPredicatesOpt resolved postFilter) →
      n ∈ ancestorDescendantPredicates resolved s'.afterMerge
  | some postFilter, _, hpre, s, s', h, n, hn => by
    simp only [walkMergeTerm] at h
    exact walkConjunction_ancestorDescendantPredicates resolved hpre
      (walkTerm_ancestorDescendantPredicates postFilter) h n hn
  | none, _, hpre, s, s', h, n, hn => by
    simp only [walkMergeTerm] at h
    exact hpre h n (by simpa [ancestorDescendantPredicatesOpt] using hn)
termination_by structural t => t

end

end

/-! ## `group_by` and `name_predicate` -/

/-- `group_by` raises the exception of the first item its key function fails on. -/
theorem groupBy_error_of_mem {α K : Type} [DecidableEq K] {f : α → Except PyError K}
    {xs : List α} {x : α} {e : PyError} (hx : x ∈ xs) (hf : f x = .error e) :
    ∃ y ∈ xs, ∃ e', f y = .error e' ∧ groupBy f xs = .error e' := by
  unfold groupBy
  generalize (∅ : PyDict K (List α)) = d
  induction xs generalizing d with
  | nil => exact absurd hx (List.not_mem_nil x)
  | cons y ys ih =>
    rw [List.foldlM_cons]
    cases hy : f y with
    | error e' => exact ⟨y, List.mem_cons_self y ys, e', hy, by simp [hy]; rfl⟩
    | ok k =>
      rcases List.mem_cons.mp hx with rfl | hx
      · rw [hf] at hy
        cases hy
      · obtain ⟨z, hz, e', hfz, h⟩ := ih hx (d.appendAt k y)
        exact ⟨z, List.mem_cons_of_mem y hz, e', hfz, by simpa [hy] using h⟩

/-- `name_predicate` fails only with the unpacking `ValueError`, and a name splits into at
most three parts, so it reports fewer. -/
theorem namePredicate_error {name : String} {e : PyError} (h : namePredicate name = .error e) :
    ∃ got < 3, e = .valueError ("not enough values to unpack (expected 3, got " ++ toString got ++ ")") := by
  have hlen := length_split_le name '.' 2
  unfold namePredicate at h
  generalize split name '.' 2 = parts at h hlen
  rcases parts with _ | ⟨_, _ | ⟨_, _ | ⟨_, _ | ⟨_, _⟩⟩⟩⟩
  · cases h
    exact ⟨0, by decide, rfl⟩
  · cases h
    exact ⟨1, by decide, rfl⟩
  · cases h
    exact ⟨2, by decide, rfl⟩
  · cases h
  · simp at hlen

/-- A name of fewer than two dots, fewer than three segments, fails `name_predicate`. -/
theorem namePredicate_error_of_count {name : String} (h : name.data.count '.' < 2) :
    ∃ e, namePredicate name = .error e := by
  unfold namePredicate
  split
  · rename_i a b c hsplit
    have := length_split_le_count name '.' 2
    rw [hsplit] at this
    simp at this
    omega
  · exact ⟨_, rfl⟩

/-! ## The rewrite -/

section

variable (resolved : List String)

/-- **A malformed ancestor/descendant name escapes the rewrite as a bare `ValueError`.** A
predicate that `is_ancestor_descendant` accepts, anywhere in the term, whose name has fewer
than three dot-separated segments makes the rewrite raise the unpacking error of
`name_predicate`, never the `AttributeError` that quotes the expected format. -/
theorem rewriteForAncestorsDescendants_malformed (p : Part) {name : String}
    (hname : name ∈ ancestorDescendantPredicates resolved p.term) (hdots : name.data.count '.' < 2) :
    ∃ got < 3, p.rewriteForAncestorsDescendants resolved =
      .error (.valueError ("not enough values to unpack (expected 3, got " ++ toString got ++ ")")) := by
  have had := hasAncestorDescendant_of_mem resolved hname
  obtain ⟨s, hs⟩ := walkTerm_ok resolved p.term had ⟨.allTerm, .allTerm⟩
  have hmem := walkTerm_ancestorDescendantPredicates resolved p.term hs name (by simpa using hname)
  obtain ⟨e, he⟩ := namePredicate_error_of_count hdots
  obtain ⟨_, -, e', hy, hg⟩ := groupBy_error_of_mem hmem he
  obtain ⟨got, hgot, rfl⟩ := namePredicate_error hy
  refine ⟨got, hgot, ?_⟩
  rw [Part.rewriteForAncestorsDescendants, if_pos had, hs, Except.ok_bind, hg]
  rfl

/-- A part with a malformed ancestor name under a negation. -/
def malformedAncestorPart : Part :=
  { term := .combinedTerm (.predicate "k" "==" (.num 1) []) "and"
      (.notTerm (.predicate "ancestors.account" "==" (.str "prod") [])) }

theorem rewriteForAncestorsDescendants_malformed_account :
    "ancestors.account" ∈ ancestorDescendantPredicates resolvedPropertyNames malformedAncestorPart.term ∧
      "ancestors.account".data.count '.' < 2 ∧
      ∃ got < 3, malformedAncestorPart.rewriteForAncestorsDescendants resolvedPropertyNames =
        .error (.valueError ("not enough values to unpack (expected 3, got " ++ toString got ++ ")")) :=
  have hname : "ancestors.account" ∈
      ancestorDescendantPredicates resolvedPropertyNames malformedAncestorPart.term := by
    decide
  have hdots : "ancestors.account".data.count '.' < 2 := by decide
  ⟨hname, hdots, rewriteForAncestorsDescendants_malformed resolvedPropertyNames malformedAncestorPart
    hname hdots⟩

end

end Resoto
