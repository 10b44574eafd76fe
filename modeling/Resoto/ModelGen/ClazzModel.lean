import Resoto.ModelGen.Shapes

/-!
# `clazz_model` and `all_models`

`clazz_model(shape, visited, …)` makes the classes of a shape and of the shapes it walks
into. It first looks up the shape's type name in the `visited` set it shares with every
other call of the run: a name already there returns `[]` at once, any other is added. A
structure then gets one property per member, and a member that is a structure, a list of a
structure or a map walks into that shape with a call of its own; the class of the
structure itself comes last. `all_models()` runs it on the result shape of every endpoint,
with one `visited` set for the whole run.

The recursion of `clazz_model` is modelled with fuel; `all_models` gives each call two more
than the number of shapes of the table, which is never used up (`ModelGen.Termination`).
-/

namespace Resoto

namespace AwsModelGen

/-- The keyword arguments of `clazz_model` after `visited`, with their defaults;
`resourcePrefix` is `prefix`. -/
structure ClazzArgs where
  resourcePrefix : Option String := none
  propPrefix : Option String := none
  clazzName : Option String := none
  baseClass : Option String := none
  aggregateRoot : Bool := false
  apiInfo : Option (String × String × String) := none

/-- The type name `clazz_model` looks up in `visited`, taken before `prefix = prefix or ""`:
a `None` prefix renders as `"None"` there. -/
def ClazzArgs.key (args : ClazzArgs) (shape : Shape) : String :=
  typeName (renderPrefix args.resourcePrefix) shape

/-- `prefix = prefix or ""`. -/
def ClazzArgs.pfx (args : ClazzArgs) : String := strOr args.resourcePrefix ""

/-- The class `clazz_model` appends for a structure after the classes of its members; its
name is `clazz_name`, else the structure's type name. -/
def ClazzArgs.model (args : ClazzArgs) (shape : Shape) (props : List AwsProperty) : AwsModel :=
  ⟨strOr args.clazzName (typeName args.pfx shape), props, args.aggregateRoot, args.baseClass,
    args.apiInfo⟩

@[simp] theorem ClazzArgs.model_name (args : ClazzArgs) (shape : Shape) (props : List AwsProperty) :
    (args.model shape props).name = strOr args.clazzName (typeName args.pfx shape) := rfl

/-- The arguments of a nested call, `clazz_model(inner, visited, prefix)`. -/
def nestedArgs (pfx : String) : ClazzArgs := { resourcePrefix := some pfx }

@[simp] theorem nestedArgs_key (pfx : String) (shape : Shape) :
    (nestedArgs pfx).key shape = typeName pfx shape := rfl

@[simp] theorem nestedArgs_pfx (pfx : String) : (nestedArgs pfx).pfx = pfx := strOr_some pfx

@[simp] theorem nestedArgs_model_name (pfx : String) (shape : Shape) (props : List AwsProperty) :
    ((nestedArgs pfx).model shape props).name = typeName pfx shape := by
  rw [ClazzArgs.model_name, nestedArgs_pfx]; rfl

/-- The state of the loop of `clazz_model` over a structure's members: `result`, `props`,
and the shared `visited` set. -/
structure LoopState where
  result : List AwsModel
  props : List AwsProperty
  visited : List String

/-- `props.append(prop)`. -/
def LoopState.add (st : LoopState) (prop : AwsProperty) : LoopState :=
  { st with props := st.props ++ [prop] }

@[simp] theorem LoopState.add_result (st : LoopState) (prop : AwsProperty) :
    (st.add prop).result = st.result := rfl

@[simp] theorem LoopState.add_visited (st : LoopState) (prop : AwsProperty) :
    (st.add prop).visited = st.visited := rfl

/-- A member that walks into a shape: `result.extend(clazz_model(inner, visited, prefix))`,
given that call as `recurse`, then `props.append(prop)`. -/
def LoopState.nest (st : LoopState)
    (recurse : Shape → List String → Fueled (List AwsModel × List String)) (inner : Shape)
    (prop : AwsProperty) : Fueled LoopState := do
  let (models, visited) ← recurse inner st.visited
  pure ⟨st.result ++ models, st.props ++ [prop], visited⟩

/-- What the loop of `clazz_model` does with one member: skip it, add a property, or first
walk into a shape with `clazz_model(inner, visited, prefix)` and then add a property. -/
inductive MemberAction where
  | skip
  | add (prop : AwsProperty)
  | nest (inner : Shape) (prop : AwsProperty)

/-- The body of the loop of `clazz_model` for the member `(name, prop_shape)`, with the
reassigned `prefix` and `prop_prefix` as `pfx` and `pp`, up to the nested `clazz_model` call:
every shape it resolves and every error it raises comes before that call, and the property
it appends does not depend on that call's result. -/
def memberAction (g : ShapeGraph) (pfx pp : String) (member : String × Shape) : Gen MemberAction :=
  let (name, propShape) := member
  let prop := toSnake name
  if prop ∈ ignoreProps then pure .skip
  else match simpleShape propShape with
  | some simpleType =>
    pure (.add { name := pp ++ prop, fromName := .inl name, type := simpleType,
                 description := propShape.documentation })
  | none =>
    match propShape.body with
    | .list memberRef => do
      let inner ← g.resolve memberRef
      match simpleShape inner with
      | some simpleType =>
        pure (.add { name := pp ++ prop, fromName := .inl name, type := simpleType,
                     description := propShape.documentation, isArray := true })
      | none =>
        match ← complexSimpleShape g inner with
        | some (propName, propType) =>
          pure (.add
            { name := pp ++ prop, fromName := .inr [name, propName], type := propType,
              description := propShape.documentation, isArray := true,
              extractor := some ("S(\"" ++ name ++ "\", default=[]) >> ForallBend(S(\"" ++ propName ++ "\"))") })
        | none =>
          pure (.nest inner
            { name := pp ++ prop, fromName := .inl name, type := typeName pfx inner,
              description := propShape.documentation, isArray := true, isComplex := true })
    | .map keyRef valueRef => do
      let key ← g.resolve keyRef
      match simpleShape key with
      | none => .error (.assertionError ("Key type must be a simple type: " ++ key.name))
      | some keyType => do
        let value ← g.resolve valueRef
        pure (.nest value
          { name := pp ++ prop, fromName := .inl name,
            type := "Dict[" ++ keyType ++ ", " ++ typeName pfx value ++ "]",
            description := propShape.documentation })
    | .structure _ => do
      match ← complexSimpleShape g propShape with
      | some (sPropName, sPropType) =>
        pure (.add { name := pp ++ prop, fromName := .inr [name, sPropName], type := sPropType,
                     description := propShape.documentation })
      | none =>
        pure (.nest propShape
          { name := pp ++ prop, fromName := .inl name, type := typeName pfx propShape,
            description := propShape.documentation, isComplex := true })
    | _ => .error (.notImplementedError ("Unsupported shape: <Shape(" ++ propShape.name ++ ")>"))

/-- One pass of the loop of `clazz_model`, with the nested `clazz_model` call as `recurse`. -/
def memberStep (g : ShapeGraph) (pfx pp : String)
    (recurse : Shape → List String → Fueled (List AwsModel × List String)) (st : LoopState)
    (member : String × Shape) : Fueled LoopState := do
  match ← (memberAction g pfx pp member).mapError some with
  | .skip => pure st
  | .add prop => pure (st.add prop)
  | .nest inner prop => st.nest recurse inner prop

/-- The loop of `clazz_model` over the resolved members of a structure, from `visited`. -/
def clazzLoop (g : ShapeGraph)
    (recurse : Shape → List String → ClazzArgs → Fueled (List AwsModel × List String))
    (args : ClazzArgs) (members : List (String × Shape)) (visited : List String) :
    Fueled LoopState :=
  members.foldlM
    (memberStep g args.pfx (strOr args.propPrefix "") fun inner v =>
      recurse inner v (nestedArgs args.pfx))
    ⟨[], [], visited⟩

/-- The body of `clazz_model(shape, visited, …)`, with its nested calls as `recurse`. -/
def clazzCall (g : ShapeGraph)
    (recurse : Shape → List String → ClazzArgs → Fueled (List AwsModel × List String))
    (shape : Shape) (visited : List String) (args : ClazzArgs) :
    Fueled (List AwsModel × List String) :=
  if args.key shape ∈ visited then pure ([], visited)
  else
    match shape.body with
    | .structure members => do
      let members ← (g.resolveMembers members).mapError some
      let st ← clazzLoop g recurse args members (args.key shape :: visited)
      pure (st.result ++ [args.model shape st.props], st.visited)
    | _ => pure ([], args.key shape :: visited)

/-- `clazz_model(shape, visited, …)`, with `fuel` for the depth of the recursion: the models
and the `visited` set after the call. -/
def clazzModel (g : ShapeGraph) :
    Nat → Shape → List String → ClazzArgs → Fueled (List AwsModel × List String)
  | 0, _, _, _ => .error none
  | fuel + 1, shape, visited, args => clazzCall g (clazzModel g fuel) shape visited args

@[simp] theorem clazzModel_zero (g : ShapeGraph) (shape : Shape) (visited : List String)
    (args : ClazzArgs) : clazzModel g 0 shape visited args = .error none := rfl

theorem clazzModel_succ (g : ShapeGraph) (fuel : Nat) (shape : Shape) (visited : List String)
    (args : ClazzArgs) :
    clazzModel g (fuel + 1) shape visited args = clazzCall g (clazzModel g fuel) shape visited args :=
  rfl

/-! ## What one call can do -/

section Loop

variable {ε σ α : Type}

/-- What every step of a loop keeps from the states it starts in, the loop keeps. -/
theorem foldlM_invariant {step : σ → α → Except ε σ} (Inv : σ → Prop) {xs : List α}
    (hstep : ∀ a ∈ xs, ∀ {s s'}, Inv s → step s a = .ok s' → Inv s') :
    ∀ {s s'}, Inv s → xs.foldlM step s = .ok s' → Inv s' := by
  induction xs with
  | nil => intro s s' hs h; cases Except.ok.inj h; exact hs
  | cons a xs ih =>
    intro s s' hs h
    obtain ⟨t, ht, h⟩ := Except.bind_eq_ok.mp h
    exact ih (fun b hb => hstep b (List.mem_cons_of_mem a hb))
      (hstep a (List.mem_cons_self a xs) hs ht) h

/-- A loop does not run out of fuel when no step does from the states the loop reaches. -/
theorem foldlM_ne_none {step : σ → α → Fueled σ} (Inv : σ → Prop) {xs : List α}
    (hinv : ∀ a ∈ xs, ∀ {s s'}, Inv s → step s a = .ok s' → Inv s')
    (hstep : ∀ a ∈ xs, ∀ {s}, Inv s → step s a ≠ .error none) :
    ∀ {s}, Inv s → xs.foldlM step s ≠ .error none := by
  induction xs with
  | nil => intro s _; exact nofun
  | cons a xs ih =>
    intro s hs
    exact Fueled.bind_ne_none (hstep a (List.mem_cons_self a xs) hs) fun t ht =>
      ih (fun b hb => hinv b (List.mem_cons_of_mem a hb))
        (fun b hb => hstep b (List.mem_cons_of_mem a hb)) (hinv a (List.mem_cons_self a xs) hs ht)

/-- Two loops agree when their steps agree wherever the first does not run out of fuel. -/
theorem foldlM_congr {step₁ step₂ : σ → α → Fueled σ} {xs : List α}
    (h : ∀ a ∈ xs, ∀ {s}, step₁ s a ≠ .error none → step₂ s a = step₁ s a) :
    ∀ {s}, xs.foldlM step₁ s ≠ .error none → xs.foldlM step₂ s = xs.foldlM step₁ s := by
  induction xs with
  | nil => intro s _; rfl
  | cons a xs ih =>
    intro s h₁
    exact Fueled.bind_congr (h a (List.mem_cons_self a xs))
      (fun t => ih fun b hb => h b (List.mem_cons_of_mem a hb)) h₁

end Loop

/-- What the loop body of `clazz_model` returns for the member `(name, propShape)`, one
constructor per branch: the member is ignored, has a simple type, is a list of simple values,
a list of one-member structures, a list of other shapes, a map, a one-member structure, or
another structure. -/
inductive MemberActs (g : ShapeGraph) (pfx pp name : String) (propShape : Shape) :
    MemberAction → Prop
  | skip : toSnake name ∈ ignoreProps → MemberActs g pfx pp name propShape .skip
  | simple {t : String} : toSnake name ∉ ignoreProps → simpleShape propShape = some t →
    MemberActs g pfx pp name propShape
      (.add { name := pp ++ toSnake name, fromName := .inl name, type := t,
              description := propShape.documentation })
  | listSimple {ref : String} {inner : Shape} {t : String} : simpleShape propShape = none →
    propShape.body = .list ref → g.resolve ref = .ok inner → simpleShape inner = some t →
    MemberActs g pfx pp name propShape
      (.add { name := pp ++ toSnake name, fromName := .inl name, type := t,
              description := propShape.documentation, isArray := true })
  | listPath {ref : String} {inner : Shape} {pn pt : String} : simpleShape propShape = none →
    propShape.body = .list ref → g.resolve ref = .ok inner →
    complexSimpleShape g inner = .ok (some (pn, pt)) →
    MemberActs g pfx pp name propShape
      (.add { name := pp ++ toSnake name, fromName := .inr [name, pn], type := pt,
              description := propShape.documentation, isArray := true,
              extractor := some ("S(\"" ++ name ++ "\", default=[]) >> ForallBend(S(\"" ++ pn ++
                "\"))") })
  | listNest {ref : String} {inner : Shape} : simpleShape propShape = none →
    propShape.body = .list ref → g.resolve ref = .ok inner → simpleShape inner = none →
    complexSimpleShape g inner = .ok none →
    MemberActs g pfx pp name propShape
      (.nest inner { name := pp ++ toSnake name, fromName := .inl name, type := typeName pfx inner,
                     description := propShape.documentation, isArray := true, isComplex := true })
  | map {keyRef valueRef keyType : String} {key value : Shape} : simpleShape propShape = none →
    propShape.body = .map keyRef valueRef → g.resolve keyRef = .ok key →
    simpleShape key = some keyType → g.resolve valueRef = .ok value →
    MemberActs g pfx pp name propShape
      (.nest value { name := pp ++ toSnake name, fromName := .inl name,
                     type := "Dict[" ++ keyType ++ ", " ++ typeName pfx value ++ "]",
                     description := propShape.documentation })
  | structPath {members : List (String × String)} {pn pt : String} : simpleShape propShape = none →
    propShape.body = .structure members → complexSimpleShape g propShape = .ok (some (pn, pt)) →
    MemberActs g pfx pp name propShape
      (.add { name := pp ++ toSnake name, fromName := .inr [name, pn], type := pt,
              description := propShape.documentation })
  | structNest {members : List (String × String)} : simpleShape propShape = none →
    propShape.body = .structure members → complexSimpleShape g propShape = .ok none →
    MemberActs g pfx pp name propShape
      (.nest propShape { name := pp ++ toSnake name, fromName := .inl name,
                         type := typeName pfx propShape, description := propShape.documentation,
                         isComplex := true })

section Step

variable {g : ShapeGraph} {pfx pp : String}

/-- Every result of the loop body is one of its branches. -/
theorem memberAction_acts {name : String} {propShape : Shape} {act : MemberAction}
    (h : memberAction g pfx pp (name, propShape) = .ok act) :
    MemberActs g pfx pp name propShape act := by
  dsimp only [memberAction] at h
  split at h
  · cases h
    exact .skip ‹_›
  rename_i hignore
  split at h
  · cases h
    exact .simple hignore ‹_›
  rename_i hsimple
  split at h
  · rename_i ref hb
    obtain ⟨inner, hi, h⟩ := Except.bind_eq_ok.mp h
    split at h
    · cases h
      exact .listSimple hsimple hb hi ‹_›
    rename_i hinner
    obtain ⟨c, hc, h⟩ := Except.bind_eq_ok.mp h
    split at h
    · cases h
      exact .listPath hsimple hb hi hc
    · cases h
      exact .listNest hsimple hb hi hinner hc
  · rename_i keyRef valueRef hb
    obtain ⟨key, hk, h⟩ := Except.bind_eq_ok.mp h
    split at h
    · cases h
    rename_i keyType hkey
    obtain ⟨value, hv, h⟩ := Except.bind_eq_ok.mp h
    cases h
    exact .map hsimple hb hk hkey hv
  · rename_i members hb
    obtain ⟨c, hc, h⟩ := Except.bind_eq_ok.mp h
    split at h
    · cases h
      exact .structPath hsimple hb hc
    · cases h
      exact .structNest hsimple hb hc
  · cases h

/-- A member is walked into only when it is a structure itself, or a list or a map whose
member or value the table resolves to the nested shape. -/
theorem memberAction_nest {member : String × Shape} {inner : Shape} {prop : AwsProperty}
    (h : memberAction g pfx pp member = .ok (.nest inner prop)) :
    inner = member.2 ∨ ∃ ref ∈ member.2.body.children, g.resolve ref = .ok inner := by
  obtain ⟨name, propShape⟩ := member
  cases memberAction_acts h with
  | listNest _ hb hi _ _ => exact .inr ⟨_, by simp [hb, ShapeBody.children], hi⟩
  | map _ hb _ _ hv => exact .inr ⟨_, by simp [hb, ShapeBody.children], hv⟩
  | structNest _ _ _ => exact .inl rfl

/-- A member either leaves the models and the visited set as they are, or walks into a
shape with one nested call, whose models and visited set it takes. -/
theorem memberStep_eq_ok {r : Shape → List String → Fueled (List AwsModel × List String)}
    {st st' : LoopState} {member : String × Shape}
    (h : memberStep g pfx pp r st member = .ok st') :
    (st'.result = st.result ∧ st'.visited = st.visited) ∨
    ∃ inner prop ms, memberAction g pfx pp member = .ok (.nest inner prop) ∧
      r inner st.visited = .ok (ms, st'.visited) ∧ st'.result = st.result ++ ms := by
  obtain ⟨act, ha, h⟩ := Except.bind_eq_ok.mp h
  replace ha := mapError_some_eq_ok ha
  cases act with
  | skip => cases Except.ok.inj h; exact .inl ⟨rfl, rfl⟩
  | add prop => cases Except.ok.inj h; exact .inl ⟨rfl, rfl⟩
  | nest inner prop =>
    obtain ⟨⟨ms, W⟩, hr, h⟩ := Except.bind_eq_ok.mp h
    cases Except.ok.inj h
    exact .inr ⟨inner, prop, ms, ha, hr, rfl⟩

theorem memberStep_ne_none {r : Shape → List String → Fueled (List AwsModel × List String)}
    {st : LoopState} {member : String × Shape}
    (h : ∀ inner prop, memberAction g pfx pp member = .ok (.nest inner prop) →
      r inner st.visited ≠ .error none) :
    memberStep g pfx pp r st member ≠ .error none :=
  Fueled.bind_ne_none (mapError_some_ne_none _) fun act ha =>
    match act with
    | .skip | .add _ => nofun
    | .nest inner prop =>
      Fueled.bind_ne_none (h inner prop (mapError_some_eq_ok ha)) fun ⟨_, _⟩ _ => nofun

theorem memberStep_congr {r₁ r₂ : Shape → List String → Fueled (List AwsModel × List String)}
    {st : LoopState} {member : String × Shape}
    (h : ∀ inner, r₁ inner st.visited ≠ .error none → r₂ inner st.visited = r₁ inner st.visited)
    (h₁ : memberStep g pfx pp r₁ st member ≠ .error none) :
    memberStep g pfx pp r₂ st member = memberStep g pfx pp r₁ st member :=
  Fueled.bind_congr (fun _ => rfl)
    (fun act hne => match act with
      | .skip | .add _ => rfl
      | .nest inner _ => Fueled.bind_congr (h inner) (fun _ _ => rfl) hne) h₁

variable {r : Shape → List String → ClazzArgs → Fueled (List AwsModel × List String)}
  {s : Shape} {V : List String} {a : ClazzArgs}

theorem clazzCall_of_mem (h : a.key s ∈ V) : clazzCall g r s V a = pure ([], V) := if_pos h

/-- A call returns at once when its shape's type name is visited; otherwise it adds that
name, and a structure runs the loop over its members from there and appends its own class. -/
theorem clazzCall_eq_ok {ms V'} (h : clazzCall g r s V a = .ok (ms, V')) :
    (a.key s ∈ V ∧ ms = [] ∧ V' = V) ∨
    (a.key s ∉ V ∧ ((ms = [] ∧ V' = a.key s :: V) ∨
      ∃ members rs st, s.body = .structure members ∧ g.resolveMembers members = .ok rs ∧
        clazzLoop g r a rs (a.key s :: V) = .ok st ∧
        ms = st.result ++ [a.model s st.props] ∧ V' = st.visited)) := by
  unfold clazzCall at h
  by_cases hk : a.key s ∈ V
  · rw [if_pos hk] at h
    cases Except.ok.inj h
    exact .inl ⟨hk, rfl, rfl⟩
  · rw [if_neg hk] at h
    refine .inr ⟨hk, ?_⟩
    split at h
    · rename_i members hb
      obtain ⟨rs, hrs, h⟩ := Except.bind_eq_ok.mp h
      obtain ⟨st, hst, h⟩ := Except.bind_eq_ok.mp h
      cases Except.ok.inj h
      exact .inr ⟨members, rs, st, hb, mapError_some_eq_ok hrs, hst, rfl, rfl⟩
    · cases Except.ok.inj h
      exact .inl ⟨rfl, rfl⟩

theorem clazzCall_ne_none
    (h : ∀ members rs, s.body = .structure members → g.resolveMembers members = .ok rs →
      clazzLoop g r a rs (a.key s :: V) ≠ .error none) :
    clazzCall g r s V a ≠ .error none := by
  unfold clazzCall
  by_cases hk : a.key s ∈ V
  · rw [if_pos hk]; exact nofun
  · rw [if_neg hk]
    revert h
    cases s.body with
    | «structure» members =>
      exact fun h => Fueled.bind_ne_none (mapError_some_ne_none _) fun rs hrs =>
        Fueled.bind_ne_none (h members rs rfl (mapError_some_eq_ok hrs)) fun _ _ => nofun
    | list _ | map _ _ | string | scalar _ => exact fun _ => nofun

theorem clazzLoop_congr {r₁ r₂ : Shape → List String → ClazzArgs → Fueled (List AwsModel × List String)}
    (h : ∀ inner W a', r₁ inner W a' ≠ .error none → r₂ inner W a' = r₁ inner W a')
    {rs : List (String × Shape)} {W : List String} (h₁ : clazzLoop g r₁ a rs W ≠ .error none) :
    clazzLoop g r₂ a rs W = clazzLoop g r₁ a rs W :=
  foldlM_congr (fun _ _ _ hne => memberStep_congr (fun inner => h inner _ _) hne) h₁

/-- The body of `clazz_model` gives the same outcome for two versions of its nested call that
agree wherever the first does not run out of fuel. -/
theorem clazzCall_congr {r₁ r₂ : Shape → List String → ClazzArgs → Fueled (List AwsModel × List String)}
    (h : ∀ inner W a', r₁ inner W a' ≠ .error none → r₂ inner W a' = r₁ inner W a')
    (h₁ : clazzCall g r₁ s V a ≠ .error none) : clazzCall g r₂ s V a = clazzCall g r₁ s V a := by
  unfold clazzCall at h₁ ⊢
  by_cases hk : a.key s ∈ V
  · rw [if_pos hk, if_pos hk]
  · rw [if_neg hk] at h₁
    rw [if_neg hk, if_neg hk]
    revert h₁
    cases s.body with
    | «structure» members =>
      exact Fueled.bind_congr (fun _ => rfl) fun rs hne =>
        Fueled.bind_congr (clazzLoop_congr h) (fun _ _ => rfl) hne
    | list _ | map _ _ | string | scalar _ => exact fun _ => rfl

end Step

/-! ## `all_models` -/

/-- The shape of an endpoint: `sm.shape_for(ep.result_shape)` when it names one, else the
output shape of the operation `pascalcase(ep.api_action)`; an operation without one makes
`clazz_model` read `None.name`. -/
def endpointShape (sm : ServiceModel) (pascalcase : String → String) (ep : AwsResotoModel) :
    Gen Shape :=
  if truthyStr ep.resultShape then sm.shapes.resolve (ep.resultShape.getD "")
  else match sm.operations.get? (pascalcase ep.apiAction) with
    | none => .error (.operationNotFound (pascalcase ep.apiAction))
    | some none => .error (.attributeError "'NoneType' object has no attribute 'name'")
    | some (some out) => sm.shapes.resolve out

/-- The fuel of a call of `clazz_model` on a service: the top call, and a chain of nested
calls through every shape of the table. -/
def ServiceModel.fuel (sm : ServiceModel) : Nat := sm.shapes.items.length + 2

/-- The arguments `all_models` passes to `clazz_model` for the endpoint `ep` of `service`. -/
def endpointArgs (service : String) (ep : AwsResotoModel) : ClazzArgs :=
  { resourcePrefix := ep.resourcePrefix, propPrefix := ep.propPrefix, clazzName := ep.name,
    baseClass := ep.base, aggregateRoot := true,
    apiInfo := some (service, ep.apiAction, ep.resultProperty) }

/-- One endpoint of the loop of `all_models`: the models so far, and the shared `visited`. -/
def endpointStep (serviceModel : String → ServiceModel) (pascalcase : String → String)
    (service : String) (acc : List AwsModel × List String) (ep : AwsResotoModel) :
    Fueled (List AwsModel × List String) := do
  let sm := serviceModel service
  let shape ← (endpointShape sm pascalcase ep).mapError some
  let (models, visited) ← clazzModel sm.shapes sm.fuel shape acc.2 (endpointArgs service ep)
  pure (acc.1 ++ models, visited)

/-- `all_models()` over the endpoint table `models`; `service_model` (boto3) and `pascalcase`
(jsons), both outside the repository, are parameters. -/
def allModels (models : PyDict String (List AwsResotoModel)) (serviceModel : String → ServiceModel)
    (pascalcase : String → String) : Fueled (List AwsModel) := do
  let (result, _) ← models.items.foldlM
    (fun acc (service, endpoints) => endpoints.foldlM (endpointStep serviceModel pascalcase service) acc)
    ([], [])
  pure result

end AwsModelGen

end Resoto
