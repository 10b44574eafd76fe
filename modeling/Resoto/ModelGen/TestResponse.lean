import Resoto.ModelGen.Termination

/-!
# `create_test_response`: a sample response of an operation

`create_test_response(service, function)` builds a sample of the output shape of an
operation with its nested `sample`: a value for a string or a known scalar, three values for a
list and for a map, and one entry for each member of a structure. Unlike `clazz_model`,
`sample` keeps no `visited` set. From a shape that can reach a shape referring back to
itself, it calls itself without end, and Python stops it with a `RecursionError`; when every
shape it can reach is one it knows and none of them refers back to itself, it returns within
as many nested calls as the table has shapes (`createTestResponse_terminates`).

The recursion is modelled with fuel, `none` when it runs out. The `enum` of a string shape is
not in the shape table: it is the parameter `enumOf`, by shape name, and `utc_str()` is
`utcStr`.
-/

namespace Resoto

namespace AwsModelGen

/-- The values of `resotolib.types.JsonElement` that `sample` builds; a float is written as
its literal. -/
inductive JsonElement where
  | str (s : String)
  | int (n : Int)
  | float (literal : String)
  | bool (b : Bool)
  | list (xs : List JsonElement)
  | dict (kvs : List (String × JsonElement))
deriving Repr

/-- What `sample` raises: botocore's errors and the generator's, and the `IndexError` of
`enum[1]` on an enum of one value. -/
inductive SampleError where
  | gen (e : GenError)
  | indexError (msg : String)
deriving DecidableEq

/-- A run of `sample`: a value, an exception `some e`, or `none` when the fuel runs out. -/
abbrev SampleRun := Except (Option SampleError)

/-- The scalar type names `sample` knows, with the values it gives them. -/
def scalarSample (utcStr typeName : String) : Option JsonElement :=
  if typeName = "double" then some (.float "1.234")
  else if typeName = "integer" then some (.int 123)
  else if typeName = "boolean" then some (.bool true)
  else if typeName = "long" then some (.int 123)
  else if typeName = "timestamp" then some (.str utcStr)
  else none

section Sample

variable (g : ShapeGraph) (enumOf : String → List String) (utcStr : String)

/-- `sample(shape)` of `create_test_response`, with fuel. `shape.member`, `shape.value` and
`shape.members` resolve the shapes they name. -/
def sample : Nat → Shape → SampleRun JsonElement
  | 0, _ => .error none
  | fuel + 1, shape =>
    match shape.body with
    | .string =>
      match enumOf shape.name with
      | _ :: e :: _ => pure (.str e)
      | [_] => .error (some (.indexError "list index out of range"))
      | [] =>
        pure (.str (if strContains shape.documentation "8601" then utcStr
          else if strContains shape.documentation "URL" then "https://example.com" else "foo"))
    | .list member => do
      let inner ← (g.resolve member).mapError (some ∘ .gen)
      .list <$> (List.range 3).mapM fun _ => sample fuel inner
    | .map _ value => do
      let valueType ← (g.resolve value).mapError (some ∘ .gen)
      .dict <$> (List.range 3).mapM fun num => (toString num, ·) <$> sample fuel valueType
    | .structure members => do
      let members ← (g.resolveMembers members).mapError (some ∘ .gen)
      .dict <$> members.mapM fun (name, shape) => (name, ·) <$> sample fuel shape
    | .scalar typeName =>
      match scalarSample utcStr typeName with
      | some v => pure v
      | none => .error (some (.gen (.notImplementedError
          "Unsupported shape: <class \x27botocore.model.Shape\x27>")))

/-- `sample` on each kind of body, one call of it. -/
theorem sample_zero (s : Shape) : sample g enumOf utcStr 0 s = .error none := rfl

theorem sample_string (fuel : Nat) (name doc : String) :
    sample g enumOf utcStr (fuel + 1) ⟨name, doc, .string⟩ =
      match enumOf name with
      | _ :: e :: _ => pure (.str e)
      | [_] => .error (some (.indexError "list index out of range"))
      | [] =>
        pure (.str (if strContains doc "8601" then utcStr
          else if strContains doc "URL" then "https://example.com" else "foo")) := rfl

theorem sample_list (fuel : Nat) (name doc member : String) :
    sample g enumOf utcStr (fuel + 1) ⟨name, doc, .list member⟩ =
      ((g.resolve member).mapError (some ∘ .gen) >>= fun inner =>
        .list <$> (List.range 3).mapM fun _ => sample g enumOf utcStr fuel inner) := rfl

theorem sample_map (fuel : Nat) (name doc key value : String) :
    sample g enumOf utcStr (fuel + 1) ⟨name, doc, .map key value⟩ =
      ((g.resolve value).mapError (some ∘ .gen) >>= fun valueType =>
        .dict <$> (List.range 3).mapM fun num =>
          (toString num, ·) <$> sample g enumOf utcStr fuel valueType) := rfl

theorem sample_structure (fuel : Nat) (name doc : String) (members : List (String × String)) :
    sample g enumOf utcStr (fuel + 1) ⟨name, doc, .structure members⟩ =
      ((g.resolveMembers members).mapError (some ∘ .gen) >>= fun members =>
        .dict <$> members.mapM fun (name, shape) =>
          (name, ·) <$> sample g enumOf utcStr fuel shape) := rfl

theorem sample_scalar (fuel : Nat) (name doc typeName : String) :
    sample g enumOf utcStr (fuel + 1) ⟨name, doc, .scalar typeName⟩ =
      match scalarSample utcStr typeName with
      | some v => pure v
      | none => .error (some (.gen (.notImplementedError
          "Unsupported shape: <class \x27botocore.model.Shape\x27>"))) := rfl

end Sample

/-- `create_test_response(service, function, is_pascal)` on the service model `sm`;
`pascalcase` is `jsons.pascalcase`. `sample` runs with one call more than the table has
shapes; running out of them is Python's `RecursionError`. -/
def createTestResponse (sm : ServiceModel) (pascalcase : String → String)
    (enumOf : String → List String) (utcStr function : String) (isPascal : Bool) :
    SampleRun JsonElement :=
  let name := if isPascal then function else pascalcase function
  match sm.operations.get? name with
  | none => .error (some (.gen (.operationNotFound name)))
  | some none => .error (some (.gen (.attributeError
      "\x27NoneType\x27 object has no attribute \x27type_name\x27")))
  | some (some out) => do
    let shape ← (sm.shapes.resolve out).mapError (some ∘ .gen)
    sample sm.shapes enumOf utcStr (sm.shapes.items.length + 1) shape

/-! ## `mapM` in `Except` -/

section ExceptMapM

variable {ε ε' α β : Type}

theorem Except.mapError_eq_ok {f : ε → ε'} {x : Except ε α} {a : α} :
    x.mapError f = .ok a ↔ x = .ok a := by
  cases x <;> simp [Except.mapError]

/-- Every input of a `mapM` that returned gave one of its outputs. -/
theorem Except.exists_mem_of_mapM {f : α → Except ε β} :
    ∀ {l : List α} {l' : List β}, l.mapM f = .ok l' → ∀ a ∈ l, ∃ b ∈ l', f a = .ok b
  | [], _, _, _, ha => nomatch ha
  | x :: l, l', h, a, ha => by
    rw [List.mapM_cons] at h
    obtain ⟨b, hb, h⟩ := Except.bind_eq_ok.mp h
    obtain ⟨bs, hbs, h⟩ := Except.bind_eq_ok.mp h
    cases Except.pure_eq_ok.mp h
    rcases List.mem_cons.mp ha with rfl | ha
    · exact ⟨b, List.mem_cons_self _ _, hb⟩
    · obtain ⟨b', hb', hf⟩ := Except.exists_mem_of_mapM hbs a ha
      exact ⟨b', List.mem_cons_of_mem _ hb', hf⟩

/-- A `mapM` whose function returns on every input returns. -/
theorem Except.mapM_eq_ok_of_forall {f : α → Except ε β} :
    ∀ {l : List α}, (∀ a ∈ l, ∃ b, f a = .ok b) → ∃ l', l.mapM f = .ok l'
  | [], _ => ⟨[], rfl⟩
  | x :: l, h => by
    obtain ⟨b, hb⟩ := h x (List.mem_cons_self _ _)
    obtain ⟨bs, hbs⟩ := Except.mapM_eq_ok_of_forall fun a ha => h a (List.mem_cons_of_mem _ ha)
    exact ⟨b :: bs, by rw [List.mapM_cons, hb, Except.ok_bind, hbs]; rfl⟩

/-- A mapped computation returns the same under a computation that returns whatever the
first one returns. -/
theorem Except.map_eq_ok_of_imp {f : α → β} {x y : Except ε α} (himp : ∀ a, x = .ok a → y = .ok a)
    {b : β} (h : f <$> x = .ok b) : f <$> y = .ok b := by
  obtain ⟨a, ha, rfl⟩ := Except.map_eq_ok.mp h
  rw [himp a ha]
  rfl

/-- A `mapM` returns the same outputs under a function that returns whatever the first one
returns. -/
theorem Except.mapM_eq_ok_of_imp {f f' : α → Except ε β} (himp : ∀ a b, f a = .ok b → f' a = .ok b) :
    ∀ {l : List α} {l' : List β}, l.mapM f = .ok l' → l.mapM f' = .ok l'
  | [], _, h => h
  | x :: l, l', h => by
    rw [List.mapM_cons] at h ⊢
    obtain ⟨b, hb, h⟩ := Except.bind_eq_ok.mp h
    obtain ⟨bs, hbs, h⟩ := Except.bind_eq_ok.mp h
    rw [himp x b hb, Except.ok_bind, Except.mapM_eq_ok_of_imp himp hbs, Except.ok_bind]
    exact h

end ExceptMapM

theorem ShapeGraph.resolve_of_holds {g : ShapeGraph} {s : Shape} (h : g.Holds s) :
    g.resolve s.name = .ok s := by
  unfold ShapeGraph.resolve
  rw [h]

theorem ShapeGraph.step_iff_mem_children {g : ShapeGraph} {s : Shape} (hs : g.Holds s) {c : String} :
    g.Step s.name c ↔ c ∈ s.body.children := by
  unfold ShapeGraph.Step
  rw [hs]
  simp

section SampleRuns

variable {g : ShapeGraph} {enumOf : String → List String} {utcStr : String}

/-- A `sample` that returned resolved each child of the shape and sampled it with one call
less. -/
theorem sample_child_ok {fuel : Nat} {s : Shape} {v : JsonElement}
    (h : sample g enumOf utcStr (fuel + 1) s = .ok v) {c : String} (hc : c ∈ s.body.children) :
    ∃ c' v', g.resolve c = .ok c' ∧ sample g enumOf utcStr fuel c' = .ok v' := by
  obtain ⟨name, doc, body⟩ := s
  cases body with
  | string | scalar _ => nomatch hc
  | list member =>
    obtain rfl := List.mem_singleton.mp hc
    rw [sample_list] at h
    obtain ⟨c', hres, h⟩ := Except.bind_eq_ok.mp h
    obtain ⟨vs, hvs, -⟩ := Except.map_eq_ok.mp h
    obtain ⟨v', -, hv'⟩ := Except.exists_mem_of_mapM hvs 0 (by decide)
    exact ⟨c', v', Except.mapError_eq_ok.mp hres, hv'⟩
  | map _ value =>
    obtain rfl := List.mem_singleton.mp hc
    rw [sample_map] at h
    obtain ⟨c', hres, h⟩ := Except.bind_eq_ok.mp h
    obtain ⟨kvs, hkvs, -⟩ := Except.map_eq_ok.mp h
    obtain ⟨kv, -, hkv⟩ := Except.exists_mem_of_mapM hkvs 0 (by decide)
    obtain ⟨v', hv', -⟩ := Except.map_eq_ok.mp hkv
    exact ⟨c', v', Except.mapError_eq_ok.mp hres, hv'⟩
  | «structure» members =>
    obtain ⟨⟨mname, ref⟩, hm, rfl⟩ := List.mem_map.mp hc
    rw [sample_structure] at h
    obtain ⟨rs, hrs, h⟩ := Except.bind_eq_ok.mp h
    obtain ⟨kvs, hkvs, -⟩ := Except.map_eq_ok.mp h
    obtain ⟨r, hr, hres⟩ := Except.exists_mem_of_mapM (Except.mapError_eq_ok.mp hrs) _ hm
    obtain ⟨c', hc', rfl⟩ := Except.map_eq_ok.mp hres
    obtain ⟨kv, -, hkv⟩ := Except.exists_mem_of_mapM hkvs _ hr
    obtain ⟨v', hv', -⟩ := Except.map_eq_ok.mp hkv
    exact ⟨c', v', hc', hv'⟩

/-- More fuel gives the same sample: a run that returned does not depend on the fuel. -/
theorem sample_succ_of_ok : ∀ {fuel : Nat} {s : Shape} {v : JsonElement},
    sample g enumOf utcStr fuel s = .ok v → sample g enumOf utcStr (fuel + 1) s = .ok v
  | 0, _, _, h => nomatch h
  | fuel + 1, ⟨name, doc, body⟩, v, h => by
    cases body with
    | string => exact h
    | scalar _ => exact h
    | list member =>
      rw [sample_list] at h ⊢
      obtain ⟨inner, hres, h⟩ := Except.bind_eq_ok.mp h
      rw [hres, Except.ok_bind]
      exact Except.map_eq_ok_of_imp
        (fun _ => Except.mapM_eq_ok_of_imp fun _ _ => sample_succ_of_ok) h
    | map _ value =>
      rw [sample_map] at h ⊢
      obtain ⟨inner, hres, h⟩ := Except.bind_eq_ok.mp h
      rw [hres, Except.ok_bind]
      exact Except.map_eq_ok_of_imp (fun _ => Except.mapM_eq_ok_of_imp
        fun _ _ => Except.map_eq_ok_of_imp fun _ => sample_succ_of_ok) h
    | «structure» members =>
      rw [sample_structure] at h ⊢
      obtain ⟨rs, hrs, h⟩ := Except.bind_eq_ok.mp h
      rw [hrs, Except.ok_bind]
      exact Except.map_eq_ok_of_imp (fun _ => Except.mapM_eq_ok_of_imp
        fun ⟨_, _⟩ _ => Except.map_eq_ok_of_imp fun _ => sample_succ_of_ok) h

theorem sample_add_of_ok {fuel : Nat} {s : Shape} {v : JsonElement}
    (h : sample g enumOf utcStr fuel s = .ok v) : ∀ k, sample g enumOf utcStr (fuel + k) s = .ok v
  | 0 => h
  | k + 1 => sample_succ_of_ok (sample_add_of_ok h k)

/-- Any two runs of `sample` on a shape that return, with whatever fuel, return the same
sample. -/
theorem sample_ok_unique {fuel fuel' : Nat} {s : Shape} {v v' : JsonElement}
    (h : sample g enumOf utcStr fuel s = .ok v) (h' : sample g enumOf utcStr fuel' s = .ok v') :
    v = v' := by
  have h₂ := sample_add_of_ok h' fuel
  rw [Nat.add_comm, sample_add_of_ok h fuel'] at h₂
  exact Except.ok.inj h₂

/-! ## A reachable cycle: no fuel is enough -/

/-- A shape from which a shape lying on a cycle of the table can be reached. -/
def ShapeGraph.ReachesCycle (g : ShapeGraph) (name : String) : Prop :=
  ∃ n, g.Reachable name n ∧ Relation.TransGen g.Step n n

/-- A shape that reaches a cycle has a child that does. -/
theorem ShapeGraph.ReachesCycle.child {s : Shape} (hs : g.Holds s) (h : g.ReachesCycle s.name) :
    ∃ c ∈ s.body.children, g.ReachesCycle c := by
  obtain ⟨n, hreach, hcyc⟩ := h
  rcases Relation.ReflTransGen.cases_head hreach with rfl | ⟨c, hstep, hc⟩
  · obtain ⟨c, hstep, hc⟩ := Relation.TransGen.head'_iff.mp hcyc
    exact ⟨c, (ShapeGraph.step_iff_mem_children hs).mp hstep, s.name, hc, hcyc⟩
  · exact ⟨c, (ShapeGraph.step_iff_mem_children hs).mp hstep, n, hc, hcyc⟩

/-- From a shape that reaches a cycle, `sample` returns with no fuel: each nested call it
needs is on a child that reaches the cycle too. -/
theorem sample_ne_ok_of_reachesCycle : ∀ (fuel : Nat) {s : Shape}, g.Holds s →
    g.ReachesCycle s.name → ∀ v, sample g enumOf utcStr fuel s ≠ .ok v
  | 0, _, _, _, _, h => nomatch h
  | fuel + 1, _, hs, hcyc, _, h => by
    obtain ⟨c, hc, hcyc'⟩ := hcyc.child hs
    obtain ⟨c', v', hres, hv'⟩ := sample_child_ok h hc
    obtain ⟨rfl, hc'⟩ := ShapeGraph.resolve_eq_ok hres
    exact sample_ne_ok_of_reachesCycle fuel hc' hcyc' v' hv'

/-! ## No reachable cycle: the table's size is enough fuel -/

/-- The bodies `sample` makes a value of: a string whose enum does not have exactly one
value (`enum[1]`), a scalar of a type it has a value for, a list, a map or a structure. -/
def SampleKnows (enumOf : String → List String) (name : String) : ShapeBody → Prop
  | .string => (enumOf name).length ≠ 1
  | .scalar typeName => typeName ∈ ["double", "integer", "boolean", "long", "timestamp"]
  | .list _ | .map _ _ | .structure _ => True

theorem scalarSample_isSome (utcStr : String) {typeName : String}
    (h : typeName ∈ ["double", "integer", "boolean", "long", "timestamp"]) :
    ∃ v, scalarSample utcStr typeName = some v := by
  simp only [List.mem_cons, List.mem_singleton, List.not_mem_nil, or_false] at h
  rcases h with rfl | rfl | rfl | rfl | rfl <;> exact ⟨_, rfl⟩

/-- Every shape reachable from `name` is in the table, and `sample` knows its body. -/
def ShapeGraph.SampleReady (g : ShapeGraph) (enumOf : String → List String) (name : String) :
    Prop :=
  ∀ n, g.Reachable name n → ∃ d, g.get? n = some d ∧ SampleKnows enumOf n d.body

theorem ShapeGraph.SampleReady.knows {s : Shape} (hs : g.Holds s)
    (h : g.SampleReady enumOf s.name) : SampleKnows enumOf s.name s.body := by
  obtain ⟨d, hd, hk⟩ := h s.name .refl
  rw [hs] at hd
  cases hd
  exact hk

open Classical in
/-- Each child of a shape that reaches no cycle resolves, and is ready for `sample` with fewer
reachable shapes: the shape itself is not reachable from the child. -/
theorem ShapeGraph.SampleReady.child {s : Shape} (hs : g.Holds s)
    (hready : g.SampleReady enumOf s.name) (hacyc : ¬g.ReachesCycle s.name) {c : String}
    (hc : c ∈ s.body.children) :
    ∃ c', g.resolve c = .ok c' ∧ g.Holds c' ∧ g.SampleReady enumOf c'.name ∧
      ¬g.ReachesCycle c'.name ∧
      g.items.countP (fun e => decide (g.Reachable c'.name e.1)) <
        g.items.countP (fun e => decide (g.Reachable s.name e.1)) := by
  have hstep := (ShapeGraph.step_iff_mem_children hs).mpr hc
  have hreach : g.Reachable s.name c := Relation.ReflTransGen.single hstep
  obtain ⟨d, hd, -⟩ := hready c hreach
  have hholds : g.Holds ⟨c, d.documentation, d.body⟩ := hd
  refine ⟨_, ShapeGraph.resolve_of_holds hholds, hholds, fun n hn => hready n (hreach.trans hn),
    fun ⟨m, hm, hcyc⟩ => hacyc ⟨m, hreach.trans hm, hcyc⟩, ?_⟩
  exact countP_lt_of_mem (fun _ _ he => decide_eq_true (hreach.trans (of_decide_eq_true he)))
    (findValue_mem hs) (decide_eq_true .refl)
    fun hback => hacyc ⟨s.name, .refl, Relation.TransGen.head' hstep (of_decide_eq_true hback)⟩

open Classical in
/-- From a shape that `sample` is ready for and that reaches no cycle, `sample` returns with
as much fuel as there are shapes reachable from it. -/
theorem sample_ok_of_acyclic : ∀ (fuel : Nat) {s : Shape}, g.Holds s →
    g.SampleReady enumOf s.name → ¬g.ReachesCycle s.name →
    g.items.countP (fun e => decide (g.Reachable s.name e.1)) ≤ fuel →
    ∃ v, sample g enumOf utcStr fuel s = .ok v
  | 0, s, hs, _, _, hle =>
    absurd hle (Nat.not_le.mpr (List.countP_pos_iff.mpr ⟨_, findValue_mem hs, decide_eq_true .refl⟩))
  | fuel + 1, ⟨name, doc, body⟩, hs, hready, hacyc, hle => by
    have hchild : ∀ c ∈ body.children, ∃ c', g.resolve c = .ok c' ∧
        ∃ v, sample g enumOf utcStr fuel c' = .ok v := fun c hc => by
      obtain ⟨c', hres, hc', hready', hacyc', hlt⟩ := hready.child hs hacyc hc
      exact ⟨c', hres, sample_ok_of_acyclic fuel hc' hready' hacyc' (by omega)⟩
    have hknows := hready.knows hs
    cases body with
    | string =>
      rw [sample_string]
      split
      · exact ⟨_, rfl⟩
      · rename_i heq
        exact absurd (by rw [heq]; rfl) hknows
      · exact ⟨_, rfl⟩
    | scalar typeName =>
      obtain ⟨v, hv⟩ := scalarSample_isSome utcStr hknows
      rw [sample_scalar, hv]
      exact ⟨v, rfl⟩
    | list member =>
      obtain ⟨c', hres, v', hv'⟩ := hchild member (List.mem_singleton_self _)
      obtain ⟨vs, hvs⟩ : ∃ vs, (List.range 3).mapM (fun _ => sample g enumOf utcStr fuel c') = .ok vs :=
        Except.mapM_eq_ok_of_forall fun _ _ => ⟨v', hv'⟩
      rw [sample_list, hres]
      exact ⟨.list vs, by rw [Except.mapError, Except.ok_bind, hvs]; rfl⟩
    | map _ value =>
      obtain ⟨c', hres, v', hv'⟩ := hchild value (List.mem_singleton_self _)
      obtain ⟨kvs, hkvs⟩ : ∃ kvs, (List.range 3).mapM (fun num =>
          (toString num, ·) <$> sample g enumOf utcStr fuel c') = .ok kvs :=
        Except.mapM_eq_ok_of_forall fun num _ => ⟨(toString num, v'), by rw [hv']; rfl⟩
      rw [sample_map, hres]
      exact ⟨.dict kvs, by rw [Except.mapError, Except.ok_bind, hkvs]; rfl⟩
    | «structure» members =>
      obtain ⟨rs, hrs⟩ : ∃ rs, g.resolveMembers members = .ok rs :=
        Except.mapM_eq_ok_of_forall fun ⟨mname, ref⟩ hm => by
          obtain ⟨c', hres, -⟩ := hchild ref (List.mem_map_of_mem Prod.snd hm)
          exact ⟨(mname, c'), by show (mname, ·) <$> g.resolve ref = _; rw [hres]; rfl⟩
      obtain ⟨kvs, hkvs⟩ : ∃ kvs, rs.mapM (fun (name, shape) =>
          (name, ·) <$> sample g enumOf utcStr fuel shape) = .ok kvs :=
        Except.mapM_eq_ok_of_forall fun ⟨rname, r⟩ hr => by
          obtain ⟨hholds, hmem⟩ := ShapeGraph.resolveMembers_mem hrs hr
          obtain ⟨c', hres, v', hv'⟩ := hchild r.name hmem
          have hv : sample g enumOf utcStr fuel r = .ok v' :=
            Except.ok.inj (hres.symm.trans (ShapeGraph.resolve_of_holds hholds)) ▸ hv'
          exact ⟨(rname, v'), by show (rname, ·) <$> sample g enumOf utcStr fuel r = _; rw [hv]; rfl⟩
      rw [sample_structure, hrs]
      exact ⟨.dict kvs, by rw [Except.mapError, Except.ok_bind, hkvs]; rfl⟩

end SampleRuns

/-! ## `create_test_response` -/

/-- `create_test_response` of an operation with an output shape returns nothing when a shape
on a cycle can be reached from that shape: `sample` keeps no `visited` set, and in Python the
recursion ends in a `RecursionError`. When every shape it can reach is in the table, `sample`
knows it, and none lies on a cycle, it returns a sample, the one that every run of `sample`
on the output shape that returns gives, whatever its fuel. -/
theorem createTestResponse_terminates (sm : ServiceModel) (pascalcase : String → String)
    (enumOf : String → List String) (utcStr function : String) (isPascal : Bool) {out : String}
    (hop : sm.operations.get? (if isPascal then function else pascalcase function) = some (some out)) :
    (sm.shapes.ReachesCycle out →
      ∀ v, createTestResponse sm pascalcase enumOf utcStr function isPascal ≠ .ok v) ∧
    (sm.shapes.SampleReady enumOf out → ¬sm.shapes.ReachesCycle out →
      ∃ v, createTestResponse sm pascalcase enumOf utcStr function isPascal = .ok v ∧
        ∀ fuel shape v', sm.shapes.resolve out = .ok shape →
          sample sm.shapes enumOf utcStr fuel shape = .ok v' → v' = v) := by
  have hrun : createTestResponse sm pascalcase enumOf utcStr function isPascal =
      ((sm.shapes.resolve out).mapError (some ∘ .gen) >>= fun shape =>
        sample sm.shapes enumOf utcStr (sm.shapes.items.length + 1) shape) := by
    unfold createTestResponse
    dsimp only
    rw [hop]
  rw [hrun]
  constructor
  · intro hcyc v h
    obtain ⟨shape, hres, hv⟩ := Except.bind_eq_ok.mp h
    obtain ⟨rfl, hs⟩ := ShapeGraph.resolve_eq_ok (Except.mapError_eq_ok.mp hres)
    exact sample_ne_ok_of_reachesCycle _ hs hcyc v hv
  · intro hready hacyc
    obtain ⟨d, hd, -⟩ := hready out .refl
    have hs : sm.shapes.Holds ⟨out, d.documentation, d.body⟩ := hd
    have hres : sm.shapes.resolve out = .ok ⟨out, d.documentation, d.body⟩ :=
      ShapeGraph.resolve_of_holds hs
    obtain ⟨v, hv⟩ : ∃ v, sample sm.shapes enumOf utcStr (sm.shapes.items.length + 1)
        ⟨out, d.documentation, d.body⟩ = .ok v :=
      sample_ok_of_acyclic _ hs hready hacyc (Nat.le_succ_of_le (List.countP_le_length _))
    refine ⟨v, by rw [hres, Except.mapError, Except.ok_bind]; exact hv, fun fuel shape v' hres' hv' => ?_⟩
    cases hres.symm.trans hres'
    exact sample_ok_unique hv' hv

/-- An acyclic service: a summary has a name and a list of counts. -/
def summaryService : ServiceModel where
  shapes := PyDict.ofList
    [("Summary", ⟨"A summary.", .structure [("Name", "String"), ("Counts", "CountList")]⟩),
     ("CountList", ⟨"", .list "Count"⟩),
     ("Count", ⟨"", .scalar "integer"⟩),
     ("String", ⟨"", .string⟩)]
  operations := PyDict.ofList [("ListSummaries", some "Summary")]

theorem createTestResponse_terminates_summaries :
    summaryService.operations.get? (if true then "ListSummaries" else id "ListSummaries") =
      some (some "Summary") ∧
    (summaryService.shapes.ReachesCycle "Summary" →
      ∀ v, createTestResponse summaryService id (fun _ => []) "" "ListSummaries" true ≠ .ok v) ∧
    (summaryService.shapes.SampleReady (fun _ => []) "Summary" →
      ¬summaryService.shapes.ReachesCycle "Summary" →
      ∃ v, createTestResponse summaryService id (fun _ => []) "" "ListSummaries" true = .ok v ∧
        ∀ fuel shape v', summaryService.shapes.resolve "Summary" = .ok shape →
          sample summaryService.shapes (fun _ => []) "" fuel shape = .ok v' → v' = v) :=
  ⟨rfl, createTestResponse_terminates summaryService id (fun _ => []) "" "ListSummaries" true rfl⟩

example : createTestResponse summaryService id (fun _ => []) "" "ListSummaries" true =
    .ok (.dict [("Name", .str "foo"), ("Counts", .list [.int 123, .int 123, .int 123])]) := rfl

/-- `enum[1]` of an enum of one value. -/
example : createTestResponse summaryService id (fun _ => ["ONLY"]) "" "ListSummaries" true =
    .error (some (.indexError "list index out of range")) := rfl

/-- The cyclic `instanceTable` as a service: the sample of its operation runs out of calls. -/
def instanceService : ServiceModel :=
  ⟨instanceTable, PyDict.ofList [("DescribeInstances", some "Instance")]⟩

example : createTestResponse instanceService id (fun _ => []) "" "DescribeInstances" true =
    .error none := rfl

end AwsModelGen

end Resoto
