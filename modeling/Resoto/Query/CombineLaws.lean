import Resoto.Query.Reachable

/-!
# `combine` is associative, and `Query.by(AllTerm())` is its left unit

`combine(self, other)` puts `other`'s parts in front of `self`'s: the part list of the
result is `other`'s parts, then the seam, then `self`'s parts after the current one. The
seam is `other`'s first-executed part followed by `self`'s current part when that one
navigates, and the two fused into one part otherwise (`combine_outcome`). Every way of
combining three queries then builds the same parts, except where both seams fuse into one
part: there the terms are `(a & b) & c` against `a & (b & c)`, equal up to the bracketing
of their `and` chain (`Part.AssocEq`). Both groupings raise in the same cases, since each
raises when two of the three queries aggregate, or when a fused part gets two
with-clauses or two tags (`combine_assoc`).

`Query.by(AllTerm())` fuses away on the left of any query. On the right it does so only
when the query's current part does not navigate; otherwise it is kept as a new current
part, and an empty tag, which `combine` reads as no tag, is dropped
(`combine_by_allTerm`). Renaming variables commutes with `combine` (`combine_changeVariable`).
-/

namespace Resoto

/-! ## Terms and parts up to the bracketing of `and` -/

/-- The operands of the `and` chain at the top of a term, left to right. -/
def Term.conjuncts : Term → List Term
  | .combinedTerm left op right =>
    if op = "and" then left.conjuncts ++ right.conjuncts else [.combinedTerm left op right]
  | t => [t]

/-- Two parts that differ at most in the bracketing of the `and` chains of their terms. -/
def Part.AssocEq (p q : Part) : Prop :=
  p.term.conjuncts = q.term.conjuncts ∧ p.tag = q.tag ∧ p.withClause = q.withClause ∧
    p.sort = q.sort ∧ p.limit = q.limit ∧ p.navigation = q.navigation

theorem Part.AssocEq.refl (p : Part) : Part.AssocEq p p := ⟨rfl, rfl, rfl, rfl, rfl, rfl⟩

theorem Part.AssocEq.forall₂_refl (ps : List Part) : List.Forall₂ Part.AssocEq ps ps :=
  List.forall₂_same.mpr fun p _ => Part.AssocEq.refl p

theorem Term.conjuncts_andTerm_assoc (x y z : Term) :
    ((x.andTerm y).andTerm z).conjuncts = (x.andTerm (y.andTerm z)).conjuncts := by
  by_cases hx : x = .allTerm
  · subst hx
    simp
  by_cases hy : y = .allTerm
  · subst hy
    simp
  by_cases hz : z = .allTerm
  · subst hz
    simp
  have hxy : Term.combinedTerm x "and" y ≠ .allTerm := fun h => Term.noConfusion h
  have hyz : Term.combinedTerm y "and" z ≠ .allTerm := fun h => Term.noConfusion h
  rw [Term.andTerm_of_ne hx hy, Term.andTerm_of_ne hy hz, Term.andTerm_of_ne hxy hz,
    Term.andTerm_of_ne hx hyz]
  exact List.append_assoc _ _ _

namespace Query

@[simp] theorem fuse_term (x y : Part) : (fuse x y).term = x.term.andTerm y.term := rfl

@[simp] theorem fuse_tag (x y : Part) :
    (fuse x y).tag = if truthyStr x.tag then x.tag else y.tag := rfl

@[simp] theorem fuse_withClause (x y : Part) :
    (fuse x y).withClause = if x.withClause.isSome then x.withClause else y.withClause := rfl

@[simp] theorem fuse_sort (x y : Part) : (fuse x y).sort = x.sort ++ y.sort := rfl

@[simp] theorem fuse_limit (x y : Part) : (fuse x y).limit = combineOptional x.limit y.limit min :=
  rfl

theorem combineOptional_assoc {α : Type} (f : α → α → α) (hf : ∀ a b c, f (f a b) c = f a (f b c))
    (a b c : Option α) :
    combineOptional (combineOptional a b f) c f = combineOptional a (combineOptional b c f) f := by
  cases a <;> cases b <;> cases c <;> simp only [combineOptional, hf]

/-- Fusing three parts either way agrees up to the bracketing of the `and` chain. -/
theorem fuse_fuse (x y z : Part) : Part.AssocEq (fuse (fuse x y) z) (fuse x (fuse y z)) := by
  refine ⟨Term.conjuncts_andTerm_assoc _ _ _, ?_, ?_, List.append_assoc _ _ _,
    combineOptional_assoc min min_assoc _ _ _, rfl⟩
  · cases h : truthyStr x.tag <;> simp [h]
  · cases h : x.withClause <;> simp [h]

/-! ## The parts `combine` builds -/

/-- The first of the parts `combine` makes of `self`'s current part `x` and `other`'s
first-executed part `y`. -/
def seamHead (x y : Part) : Part := if x.navigation.isSome then y else fuse x y

/-- The last of the parts `combine` makes of `x` and `y`. -/
def seamLast (x y : Part) : Part := if x.navigation.isSome then x else fuse x y

/-- The parts `combine` makes of `x` and `y`: both when `x` navigates, else one fused. -/
def seam (x y : Part) : List Part := if x.navigation.isSome then [y, x] else [fuse x y]

theorem seam_eq_cons (x y : Part) :
    seam x y = seamHead x y :: if x.navigation.isSome then [x] else [] := by
  unfold seam seamHead
  split <;> rfl

theorem seam_eq_concat (x y : Part) :
    seam x y = (if x.navigation.isSome then [y] else []) ++ [seamLast x y] := by
  unfold seam seamLast
  split <;> rfl

@[simp] theorem seamHead_navigation (x y : Part) : (seamHead x y).navigation = y.navigation := by
  unfold seamHead
  split <;> rfl

/-- `combine` rejects the seam of `x` and `y`: `x` does not navigate, and the two carry two
with-clauses or two tags. -/
def Part.clashes (x y : Part) : Bool :=
  !x.navigation.isSome &&
    ((x.withClause.isSome && y.withClause.isSome) || (truthyStr x.tag && truthyStr y.tag))

/-- What a combine returns: an `AttributeError` when it `fails`, otherwise the query with
the given parts, preamble and aggregate. -/
def CombineOutcome (r : Except PyError Query) (fails : Bool) (parts : List Part)
    (preamble : PyDict String Json) (aggregate : Option Aggregate) : Prop :=
  (fails = true → ∃ m, r = .error (.attributeError m)) ∧
    (fails = false → r = QueryOf.ofParts parts preamble aggregate)

/-- **What `combine` returns**, for `other`'s parts in the form `ys ++ [y]`. -/
theorem combine_outcome {self other : Query} {ys : List Part} {y : Part}
    (h : other.parts = ys ++ [y]) :
    CombineOutcome (self.combine other)
      ((self.aggregate.isSome && other.aggregate.isSome) || Part.clashes self.current y)
      (ys ++ seam self.current y ++ self.rest) (self.preamble.merge other.preamble)
      (self.aggregate.or other.aggregate) := by
  have hlast : other.parts.getLast (List.cons_ne_nil _ _) = y := by
    rw [List.getLast_congr _ (by simp) h, List.getLast_concat]
  have hagg : (if self.aggregate.isSome then self.aggregate else other.aggregate) =
      self.aggregate.or other.aggregate := by cases self.aggregate <;> rfl
  unfold combine
  rw [hlast, h, List.dropLast_concat]
  simp only [hagg]
  by_cases hA : self.aggregate.isSome = true ∧ other.aggregate.isSome = true
  · rw [if_pos hA]
    exact ⟨fun _ => ⟨_, rfl⟩, fun hf => by simp [hA.1, hA.2] at hf⟩
  by_cases hnav : self.current.navigation.isSome = true
  · rw [if_neg hA, if_pos hnav]
    refine ⟨fun hf => absurd (by simpa [Part.clashes, hnav] using hf) hA, fun _ => ?_⟩
    rw [seam, if_pos hnav]
    simp
  by_cases hw : self.current.withClause.isSome = true ∧ y.withClause.isSome = true
  · rw [if_neg hA, if_neg hnav, if_pos hw]
    exact ⟨fun _ => ⟨_, rfl⟩, fun hf => by simp [Part.clashes, hnav, hw.1, hw.2] at hf⟩
  by_cases ht : truthyStr self.current.tag = true ∧ truthyStr y.tag = true
  · rw [if_neg hA, if_neg hnav, if_neg hw, if_pos ht]
    exact ⟨fun _ => ⟨_, rfl⟩, fun hf => by simp [Part.clashes, hnav, ht.1, ht.2] at hf⟩
  rw [if_neg hA, if_neg hnav, if_neg hw, if_neg ht]
  refine ⟨fun hf => ?_, fun _ => by rw [seam, if_neg hnav]; simp⟩
  simp only [Bool.or_eq_true, Bool.and_eq_true, Part.clashes, hnav, Bool.not_false,
    true_and] at hf
  rcases hf with hf | hf | hf
  exacts [absurd hf hA, absurd hf hw, absurd hf ht]

theorem CombineOutcome.bind {r : Except PyError Query} {fails : Bool} {parts : List Part}
    {preamble : PyDict String Json} {aggregate : Option Aggregate} (hr : CombineOutcome r fails parts preamble aggregate)
    (hne : parts ≠ []) {k : Query → Except PyError Query} {fails' : Bool} {parts' : List Part}
    {preamble' : PyDict String Json} {aggregate' : Option Aggregate}
    (hk : ∀ q : Query, q.parts = parts → q.preamble = preamble → q.aggregate = aggregate →
      CombineOutcome (k q) fails' parts' preamble' aggregate') :
    CombineOutcome (r >>= k) (fails || fails') parts' preamble' aggregate' := by
  obtain ⟨p, ps, rfl⟩ := List.exists_cons_of_ne_nil hne
  cases fails with
  | true =>
    obtain ⟨m, hm⟩ := hr.1 rfl
    exact ⟨fun _ => ⟨m, by rw [hm]; rfl⟩, nofun⟩
  | false =>
    rw [hr.2 rfl, QueryOf.ofParts_cons]
    exact hk ⟨p, ps, preamble, aggregate⟩ rfl rfl rfl

/-- The left grouping: combining the result of a combine with `c`. -/
theorem CombineOutcome.bind_combine {r : Except PyError Query} {fails : Bool} {p : Part}
    {ps : List Part} {preamble : PyDict String Json} {aggregate : Option Aggregate}
    (hr : CombineOutcome r fails (p :: ps) preamble aggregate) {c : Query} {cs : List Part}
    {cL : Part} (hc : c.parts = cs ++ [cL]) :
    CombineOutcome (r >>= (·.combine c))
      (fails || ((aggregate.isSome && c.aggregate.isSome) || Part.clashes p cL))
      (cs ++ seam p cL ++ ps) (preamble.merge c.preamble) (aggregate.or c.aggregate) :=
  hr.bind (List.cons_ne_nil _ _) fun q hq hP hA => by
    obtain ⟨hcur, hrest⟩ := List.cons.inj ((QueryOf.parts_eq q).symm.trans hq)
    have := (combine_outcome hc : CombineOutcome (q.combine c) _ _ _ _)
    rwa [hcur, hrest, hP, hA] at this

/-- The right grouping: combining `a` with the result of a combine. -/
theorem CombineOutcome.combine_bind {r : Except PyError Query} {fails : Bool} {ys : List Part}
    {y : Part} {preamble : PyDict String Json} {aggregate : Option Aggregate}
    (hr : CombineOutcome r fails (ys ++ [y]) preamble aggregate) (a : Query) :
    CombineOutcome (r >>= a.combine)
      (fails || ((a.aggregate.isSome && aggregate.isSome) || Part.clashes a.current y))
      (ys ++ seam a.current y ++ a.rest) (a.preamble.merge preamble) (a.aggregate.or aggregate) :=
  hr.bind (by simp) fun q hq hP hA => by
    have := (combine_outcome hq : CombineOutcome (a.combine q) _ _ _ _)
    rwa [hP, hA] at this

/-- Two outcomes that fail alike, on parts equal up to bracketing: the law of
`combine_assoc`. -/
theorem CombineOutcome.assoc {r₁ r₂ : Except PyError Query} {fails₁ fails₂ : Bool}
    {parts₁ parts₂ : List Part} {preamble₁ preamble₂ : PyDict String Json}
    {aggregate₁ aggregate₂ : Option Aggregate}
    (h₁ : CombineOutcome r₁ fails₁ parts₁ preamble₁ aggregate₁)
    (h₂ : CombineOutcome r₂ fails₂ parts₂ preamble₂ aggregate₂) (hf : fails₁ = fails₂)
    (hparts : List.Forall₂ Part.AssocEq parts₁ parts₂) (hne : parts₁ ≠ [])
    (hpre : preamble₁ = preamble₂) (hagg : aggregate₁ = aggregate₂) :
    ((∃ m, r₁ = .error (.attributeError m)) ↔ ∃ m, r₂ = .error (.attributeError m)) ∧
    ((∃ q, r₁ = .ok q) ↔ ∃ q, r₂ = .ok q) ∧
    ∀ {q₁ q₂}, r₁ = .ok q₁ → r₂ = .ok q₂ →
      q₁.preamble = q₂.preamble ∧ q₁.aggregate = q₂.aggregate ∧
        List.Forall₂ Part.AssocEq q₁.parts q₂.parts := by
  subst hf hpre hagg
  obtain ⟨p₁, ps₁, rfl⟩ := List.exists_cons_of_ne_nil hne
  obtain ⟨p₂, ps₂, rfl⟩ : ∃ p ps, parts₂ = p :: ps := by
    cases hparts
    exact ⟨_, _, rfl⟩
  cases fails₁ with
  | true =>
    obtain ⟨⟨m₁, rfl⟩, ⟨m₂, rfl⟩⟩ := And.intro (h₁.1 rfl) (h₂.1 rfl)
    refine ⟨⟨fun _ => ⟨m₂, rfl⟩, fun _ => ⟨m₁, rfl⟩⟩, ⟨?_, ?_⟩, fun h => Except.noConfusion h⟩
    all_goals exact fun ⟨_, h⟩ => Except.noConfusion h
  | false =>
    rw [h₁.2 rfl, h₂.2 rfl, QueryOf.ofParts_cons, QueryOf.ofParts_cons]
    refine ⟨⟨?_, ?_⟩, ⟨fun _ => ⟨_, rfl⟩, fun _ => ⟨_, rfl⟩⟩, ?_⟩
    iterate 2 exact fun ⟨_, h⟩ => Except.noConfusion h
    rintro _ _ ⟨⟩ ⟨⟩
    exact ⟨rfl, rfl, hparts⟩

/-! ## Associativity -/

theorem or_isSome_eq {α : Type} (a b : Option α) : (a.or b).isSome = (a.isSome || b.isSome) := by
  cases a <;> rfl

@[simp] theorem isSome_fuse_withClause (x y : Part) :
    (fuse x y).withClause.isSome = (x.withClause.isSome || y.withClause.isSome) := by
  cases h : x.withClause <;> simp [h]

@[simp] theorem truthyStr_fuse_tag (x y : Part) :
    truthyStr (fuse x y).tag = (truthyStr x.tag || truthyStr y.tag) := by
  cases h : truthyStr x.tag <;> simp [h]

/-- Both groupings raise alike: two of three aggregates, or one of the two seams. -/
theorem fails_assoc (x y z c₁ c₂ c₃ c₄ : Bool) (h : (c₁ || c₂) = (c₃ || c₄)) :
    (((x && y) || c₁) || (((x || y) && z) || c₂)) =
      (((y && z) || c₃) || ((x && (y || z)) || c₄)) := by
  revert x y z c₁ c₂ c₃ c₄
  decide

/-- The seams of one middle part with its two neighbours clash alike in both groupings. -/
theorem clashes_seam (x y z : Part) :
    (Part.clashes x y || Part.clashes (seamHead x y) z) =
      (Part.clashes y z || Part.clashes x (seamLast y z)) := by
  unfold seamHead seamLast Part.clashes
  cases hx : x.navigation.isSome <;> cases hy : y.navigation.isSome <;>
    simp only [hx, hy, if_true, if_false, fuse_navigation, isSome_fuse_withClause,
      truthyStr_fuse_tag, Bool.false_eq_true]
  all_goals
    generalize x.withClause.isSome = wx
    generalize y.withClause.isSome = wy
    generalize z.withClause.isSome = wz
    generalize truthyStr x.tag = tx
    generalize truthyStr y.tag = ty
    generalize truthyStr z.tag = tz
    revert wx wy wz tx ty tz
    decide

/-- The seams of a single middle part `y` give parts equal up to bracketing. -/
theorem seam_seam (x y z : Part) :
    List.Forall₂ Part.AssocEq (seam (seamHead x y) z ++ if x.navigation.isSome then [x] else [])
      ((if y.navigation.isSome then [z] else []) ++ seam x (seamLast y z)) := by
  unfold seam seamHead seamLast
  cases hx : x.navigation.isSome <;> cases hy : y.navigation.isSome <;>
    simp only [hx, hy, if_true, if_false, Bool.false_eq_true, fuse_navigation, List.nil_append,
      List.append_nil, List.cons_append]
  · exact .cons (fuse_fuse x y z) .nil
  all_goals exact Part.AssocEq.forall₂_refl _

/-- **`combine` is associative.** `(a.combine(b)).combine(c)` raises an `AttributeError`
iff `a.combine(b.combine(c))` does; otherwise the two results have equal preambles and
aggregates and the same number of parts, pairwise equal up to the bracketing of the `and`
chains of their terms. -/
theorem combine_assoc (a b c : Query) :
    ((∃ m, (a.combine b >>= (·.combine c)) = .error (.attributeError m)) ↔
      ∃ m, (b.combine c >>= a.combine) = .error (.attributeError m)) ∧
    ((∃ r, (a.combine b >>= (·.combine c)) = .ok r) ↔ ∃ r, (b.combine c >>= a.combine) = .ok r) ∧
    ∀ {r₁ r₂}, (a.combine b >>= (·.combine c)) = .ok r₁ → (b.combine c >>= a.combine) = .ok r₂ →
      r₁.preamble = r₂.preamble ∧ r₁.aggregate = r₂.aggregate ∧
        List.Forall₂ Part.AssocEq r₁.parts r₂.parts := by
  obtain ⟨cs, cL, hc⟩ : ∃ cs cL, c.parts = cs ++ [cL] :=
    ⟨_, _, (List.dropLast_append_getLast (List.cons_ne_nil _ _)).symm⟩
  obtain ⟨a₀, as, Pa, Aa⟩ := a
  obtain ⟨b₀, bs, Pb, Ab⟩ := b
  have hne : ∀ x y : Part, ∀ ys zs : List Part, ys ++ seam x y ++ zs ≠ [] := by
    simp [seam_eq_cons]
  rcases List.eq_nil_or_concat' bs with rfl | ⟨rs, bL, rfl⟩
  · -- one middle part: both seams meet in it
    have hab := (combine_outcome (show QueryOf.parts (⟨b₀, [], Pb, Ab⟩ : Query) = [] ++ [b₀] from rfl) :
      CombineOutcome (Query.combine ⟨a₀, as, Pa, Aa⟩ ⟨b₀, [], Pb, Ab⟩) _ _ _ _)
    have hbc := (combine_outcome hc : CombineOutcome (Query.combine ⟨b₀, [], Pb, Ab⟩ c) _ _ _ _)
    rw [List.nil_append, seam_eq_cons, List.cons_append] at hab
    rw [seam_eq_concat, List.append_nil, ← List.append_assoc] at hbc
    refine (hab.bind_combine hc).assoc (hbc.combine_bind _) ?_ ?_ (hne _ _ _ _) (PyDict.merge_assoc _ _ _)
      Option.or_assoc
    · simp only [or_isSome_eq]
      exact fails_assoc _ _ _ _ _ _ _ (clashes_seam a₀ b₀ cL)
    · simpa only [List.append_assoc] using List.rel_append (Part.AssocEq.forall₂_refl cs)
        (List.rel_append (seam_seam a₀ b₀ cL) (Part.AssocEq.forall₂_refl as))
  · -- several middle parts: the seams are apart
    have hab := (combine_outcome (show QueryOf.parts (⟨b₀, rs ++ [bL], Pb, Ab⟩ : Query) =
        (b₀ :: rs) ++ [bL] from rfl) :
      CombineOutcome (Query.combine ⟨a₀, as, Pa, Aa⟩ ⟨b₀, rs ++ [bL], Pb, Ab⟩) _ _ _ _)
    have hbc := (combine_outcome hc :
      CombineOutcome (Query.combine ⟨b₀, rs ++ [bL], Pb, Ab⟩ c) _ _ _ _)
    rw [List.cons_append, List.cons_append] at hab
    rw [← List.append_assoc] at hbc
    refine (hab.bind_combine hc).assoc (hbc.combine_bind _) ?_ ?_ (hne _ _ _ _) (PyDict.merge_assoc _ _ _)
      Option.or_assoc
    · simp only [or_isSome_eq]
      exact fails_assoc _ _ _ _ _ _ _ (Bool.or_comm _ _)
    · simpa only [List.append_assoc] using Part.AssocEq.forall₂_refl _

/-! ## `Query.by(AllTerm())` -/

theorem by_allTerm : Query.«by» (.term .allTerm) = ⟨{ term := .allTerm }, [], ∅, none⟩ := rfl

theorem ofParts_parts (q : Query) : QueryOf.ofParts q.parts q.preamble q.aggregate = .ok q := rfl

/-- A part of `AllTerm()` with nothing else fuses away on the left. -/
theorem fuse_allPart (y : Part) : fuse { term := .allTerm } y = y := by
  obtain ⟨term, tag, withClause, sort, limit, navigation⟩ := y
  simp [fuse, combineOptional, truthyStr]

/-- On the right it keeps the part, but for a tag `combine` reads as absent. -/
theorem fuse_allPart_right (x : Part) :
    fuse x { term := .allTerm } =
      { x with tag := if truthyStr x.tag then x.tag else none, navigation := none } := by
  obtain ⟨term, tag, withClause, sort, limit, navigation⟩ := x
  cases withClause <;> cases limit <;> simp [fuse, combineOptional]

theorem combine_allTerm_left (q : Query) : (Query.«by» (.term .allTerm)).combine q = .ok q := by
  obtain ⟨ys, y, hq⟩ : ∃ ys y, q.parts = ys ++ [y] :=
    ⟨_, _, (List.dropLast_append_getLast (List.cons_ne_nil _ _)).symm⟩
  have h := (combine_outcome hq : CombineOutcome ((Query.«by» (.term .allTerm)).combine q) _ _ _ _)
  rw [by_allTerm] at h ⊢
  rw [h.2 (by simp [Part.clashes, truthyStr]), seam, if_neg (by simp), fuse_allPart, List.append_nil, ← hq,
    PyDict.empty_merge]
  exact ofParts_parts q

theorem combine_allTerm_right (q : Query) :
    q.combine (Query.«by» (.term .allTerm)) =
      .ok (if q.current.navigation.isSome then
          { q with current := { term := .allTerm }, rest := q.parts }
        else { q with current := fuse q.current { term := .allTerm } }) := by
  have h := (combine_outcome (show (Query.«by» (.term .allTerm)).parts = [] ++ [{ term := .allTerm }]
    from rfl) : CombineOutcome (q.combine (Query.«by» (.term .allTerm))) _ _ _ _)
  rw [h.2 (by simp [Part.clashes, by_allTerm, truthyStr]), by_allTerm, PyDict.merge_empty, Option.or_none, seam]
  split <;> rfl

/-- **`Query.by(AllTerm())` is a left unit of `combine`, and a right unit only where the
current part does not navigate and has no empty tag.** When the current part navigates,
`q.combine(E)` keeps `Part(AllTerm())` as a new current part in front of `q`'s parts. -/
theorem combine_by_allTerm (q : Query) :
    (Query.«by» (.term .allTerm)).combine q = .ok q ∧
    (q.combine (Query.«by» (.term .allTerm)) = .ok q ↔
      q.current.navigation = none ∧ q.current.tag ≠ some "") ∧
    (q.current.navigation.isSome = true →
      q.combine (Query.«by» (.term .allTerm)) =
        .ok { q with current := { term := .allTerm }, rest := q.parts }) := by
  refine ⟨combine_allTerm_left q, ?_, fun hnav => by rw [combine_allTerm_right, if_pos hnav]⟩
  rw [combine_allTerm_right]
  obtain ⟨⟨term, tag, withClause, sort, limit, navigation⟩, rest, preamble, aggregate⟩ := q
  cases navigation with
  | some n =>
    simp only [Option.isSome_some, if_true, Except.ok.injEq, reduceCtorEq, false_and, iff_false]
    intro h
    have := congrArg (fun q : Query => q.rest.length) h
    simp at this
  | none =>
    simp only [Option.isSome_none, if_false, Bool.false_eq_true, fuse_allPart_right,
      Except.ok.injEq, QueryOf.mk.injEq, PartOf.mk.injEq, true_and, and_true]
    cases tag with
    | none => simp [truthyStr]
    | some t => by_cases ht : t = "" <;> simp [truthyStr, ht]

/-- `Query.by("aws_ec2_instance").traverse_out()`, whose current part navigates. -/
def traversedQuery : Query := (Query.«by» (.kind "aws_ec2_instance")).traverseOut

/-- **`q.combine(E)` is not `q` for a query built by the fluent API.** `traversedQuery`
is built by `Query.by` and `traverse_out`, and combined with `Query.by(AllTerm())` it
gets one more part. -/
theorem combine_by_allTerm_traversed :
    traversedQuery.Reachable ∧
      (traversedQuery.combine (Query.«by» (.term .allTerm))).toOption.map (·.parts.length) = some 2 ∧
      traversedQuery.parts.length = 1 ∧
      traversedQuery.combine (Query.«by» (.term .allTerm)) ≠ .ok traversedQuery :=
  ⟨.traverse (.«by» _ _ _) _ _ _ _, rfl, rfl,
    fun h => absurd (congrArg (fun r => r.toOption.map (·.parts.length)) h) (by decide)⟩

/-! ## Renaming the variables of combined queries -/

theorem fuse_changeVariable (fn : String → String) (x y : Part) :
    Part.changeVariable fn (fuse x y) = fuse (Part.changeVariable fn x) (Part.changeVariable fn y) := by
  obtain ⟨xt, xtag, xw, xs, xl, xn⟩ := x
  obtain ⟨yt, ytag, yw, ys, yl, yn⟩ := y
  simp only [fuse, Part.changeVariable, Term.changeVariable_andTerm, List.map_append]
  cases xw <;> rfl

theorem ofParts_changeVariable (fn : String → String) (ps : List Part)
    (preamble : PyDict String Json) (aggregate : Option Aggregate) :
    (QueryOf.ofParts ps preamble aggregate).map (Query.changeVariable fn) =
      QueryOf.ofParts (ps.map (Part.changeVariable fn)) preamble
        (aggregate.map (Aggregate.changeVariable fn)) := by
  cases ps with
  | nil => rfl
  | cons p ps =>
    show Except.ok (Query.changeVariable fn ⟨p, ps, preamble, aggregate⟩) = _
    simp [Query.changeVariable, QueryOf.ofParts_cons]

/-- **Renaming commutes with `combine`.** `change_variable`, and so `on_section` and
`relative_to_section`, give the same query before or after two queries are combined, and
`combine` raises on the renamed queries exactly when it raises on the originals. -/
theorem combine_changeVariable (fn : String → String) (a b : Query) :
    (a.combine b).map (Query.changeVariable fn) =
      (a.changeVariable fn).combine (b.changeVariable fn) := by
  have hlast : (b.changeVariable fn).parts.getLast (List.cons_ne_nil _ _) =
      Part.changeVariable fn (b.parts.getLast (List.cons_ne_nil _ _)) := by
    simp only [Query.changeVariable_parts, List.getLast_map]
  have hdrop : (b.changeVariable fn).parts.dropLast = b.parts.dropLast.map (Part.changeVariable fn) := by
    rw [Query.changeVariable_parts, List.map_dropLast]
  have hagg := apply_ite (Option.map (Aggregate.changeVariable fn)) (a.aggregate.isSome = true)
    a.aggregate b.aggregate
  unfold combine
  simp only [Query.changeVariable_aggregate, Option.isSome_map', Query.changeVariable_current,
    Part.changeVariable_navigation, Query.changeVariable_preamble, hlast,
    Part.changeVariable_withClause_isSome, Part.changeVariable_tag, ← hagg]
  by_cases hboth : a.aggregate.isSome = true ∧ b.aggregate.isSome = true
  · rw [if_pos hboth, if_pos hboth]; rfl
  rw [if_neg hboth, if_neg hboth]
  by_cases hnav : a.current.navigation.isSome = true
  · rw [if_pos hnav, if_pos hnav, ofParts_changeVariable, List.map_append,
      ← Query.changeVariable_parts, ← Query.changeVariable_parts]
  rw [if_neg hnav, if_neg hnav]
  by_cases hw : a.current.withClause.isSome = true ∧
      (b.parts.getLast (List.cons_ne_nil _ _)).withClause.isSome = true
  · rw [if_pos hw, if_pos hw]; rfl
  rw [if_neg hw, if_neg hw]
  by_cases ht : truthyStr a.current.tag = true ∧
      truthyStr (b.parts.getLast (List.cons_ne_nil _ _)).tag = true
  · rw [if_pos ht, if_pos ht]; rfl
  rw [if_neg ht, if_neg ht, ofParts_changeVariable, List.map_append, List.map_cons, ← hdrop,
    fuse_changeVariable, Query.changeVariable_rest]

end Query

end Resoto
