import Resoto.ModelGen.TestResponse

/-!
# Every class a generated class bends with is defined before it

`AwsProperty.mapping` renders a complex property as `S(name) >> Bend(T.mapping)`, or
`ForallBend(T.mapping)` for a list, and `type_string` as `Optional[T]`. Both run when the
generated class body runs, so the generated module loads only if each such class `T` is
defined before the class that uses it. `clazz_model` puts the classes of the shapes it walks
into before the class of the structure that walks into them, and a type name it finds
visited is the name of a class it made before, unless that class is still being made by a
call further up. On a shape table where no cycle can be reached and every list holds simple
shapes or structures, a complex property therefore only names classes defined before its own
(`clazzModel_bendsDefined`). On the cyclic `instanceTable` it does not: `AwsInstance` bends
with its own mapping.

`Settled` says which visited names are classes already made; `clazzModel_order` proves by
induction over the fuel what every call keeps, from one lemma per pass of the loop over a
structure's members (`memberStep_orderInv`).
-/

namespace Resoto

namespace AwsModelGen

/-! ## Classes in order -/

/-- Every complex property of the classes `ms` names a class of `defined` or one before its
own. -/
def BendsDefined : List String → List AwsModel → Prop
  | _, [] => True
  | defined, m :: ms =>
    (∀ p ∈ m.props, p.isComplex = true → p.type ∈ defined) ∧ BendsDefined (defined ++ [m.name]) ms

instance instDecidableBendsDefined :
    ∀ (defined : List String) (ms : List AwsModel), Decidable (BendsDefined defined ms)
  | _, [] => isTrue trivial
  | defined, m :: ms =>
    haveI := instDecidableBendsDefined (defined ++ [m.name]) ms
    inferInstanceAs (Decidable ((∀ p ∈ m.props, p.isComplex = true → p.type ∈ defined) ∧
      BendsDefined (defined ++ [m.name]) ms))

theorem BendsDefined.append {xs ys : List AwsModel} :
    ∀ {defined : List String}, BendsDefined defined xs →
      BendsDefined (defined ++ xs.map AwsModel.name) ys → BendsDefined defined (xs ++ ys) := by
  induction xs with
  | nil => exact fun _ h => by simpa using h
  | cons m xs ih =>
    intro defined hxs hys
    exact ⟨hxs.1, ih hxs.2 (by simpa using hys)⟩

/-! ## Type names -/

/-- `true` for a structure. -/
def ShapeBody.isStructure : ShapeBody → Bool
  | .structure _ => true
  | _ => false

theorem ShapeGraph.Holds.eq {g : ShapeGraph} {s t : Shape} (hs : g.Holds s) (ht : g.Holds t)
    (h : s.name = t.name) : s = t := by
  obtain ⟨name, doc, body⟩ := s
  obtain ⟨name', doc', body'⟩ := t
  cases h
  have := hs.symm.trans ht
  cases this
  rfl

theorem lookup_mem_snd {l : List (String × String)} {k v : String} (h : l.lookup k = some v) :
    v ∈ l.map Prod.snd := by
  induction l with
  | nil => cases h
  | cons e l ih =>
    rw [List.lookup_cons] at h
    split at h
    · cases h
      exact List.mem_cons_self _ _
    · exact List.mem_cons_of_mem _ (ih h)

/-- A simple type is `str` or a value of `simple_type_map`. -/
theorem simpleShape_mem {s : Shape} {x : String} (h : simpleShape s = some x) :
    x ∈ "str" :: simpleTypeMap.map Prod.snd := by
  unfold simpleShape at h
  split at h
  · cases h
    exact List.mem_cons_self _ _
  · rcases Option.or_eq_some.mp h with h | ⟨-, h⟩ <;> exact List.mem_cons_of_mem _ (lookup_mem_snd h)

/-- No simple type starts with the `A` of `Aws`. -/
theorem simpleShape_head {s : Shape} {x : String} (h : simpleShape s = some x) :
    x.data.head? ≠ some 'A' := by
  have hvals : ∀ v ∈ "str" :: simpleTypeMap.map Prod.snd, v.data.head? ≠ some 'A' := by decide
  exact hvals x (simpleShape_mem h)

theorem typeName_of_not_simple {pfx : String} {s : Shape} (h : simpleShape s = none) :
    typeName pfx s = "Aws" ++ pfx ++ s.name := by
  simp [typeName, h]

/-- Under one prefix, two shapes not of a simple type have one type name only when they
have one name, and no shape of a simple type has theirs. -/
theorem name_eq_of_typeName_eq {pfx : String} {s t : Shape} (ht : simpleShape t = none)
    (h : typeName pfx t = typeName pfx s) : simpleShape s = none ∧ t.name = s.name := by
  rw [typeName_of_not_simple ht] at h
  cases hs : simpleShape s with
  | some x =>
    have hx : typeName pfx s = x := by simp [typeName, hs]
    exact absurd (by rw [← hx, ← h]; rfl) (simpleShape_head hs)
  | none =>
    rw [typeName_of_not_simple hs, String.append_assoc, String.append_assoc] at h
    exact ⟨rfl, String.ext (List.append_cancel_left (List.append_cancel_left
      (congrArg String.data h)))⟩

/-! ## What a member adds -/

section Member

variable {g : ShapeGraph} {pfx pp : String} {member : String × Shape} {prop : AwsProperty}

/-- A property added without a nested call is never complex. -/
theorem memberAction_add_not_complex (h : memberAction g pfx pp member = .ok (.add prop)) :
    prop.isComplex = false := by
  obtain ⟨name, propShape⟩ := member
  cases memberAction_acts h <;> rfl

/-- A complex property names the type of the shape its member walks into: a structure that
is the member itself, or what the member of a list resolves to; neither is of a simple type. -/
theorem memberAction_nest_complex {inner : Shape}
    (h : memberAction g pfx pp member = .ok (.nest inner prop)) (hc : prop.isComplex = true) :
    prop.type = typeName pfx inner ∧ simpleShape inner = none ∧
      ((inner = member.2 ∧ inner.body.isStructure = true) ∨
        ∃ m, member.2.body = .list m ∧ g.resolve m = .ok inner) := by
  obtain ⟨name, propShape⟩ := member
  cases memberAction_acts h with
  | listNest _ hb hi hinner _ => exact ⟨rfl, hinner, .inr ⟨_, hb, hi⟩⟩
  | map => cases hc
  | structNest hsimple hb _ => exact ⟨rfl, hsimple, .inl ⟨rfl, by rw [hb]; rfl⟩⟩

/-- A pass of the loop leaves the state as it is, adds a property, or adds the classes and
the visited set of one nested call and then a property. -/
theorem memberStep_cases {r : Shape → List String → Fueled (List AwsModel × List String)}
    {st st' : LoopState} (h : memberStep g pfx pp r st member = .ok st') :
    st' = st ∨ (∃ prop, memberAction g pfx pp member = .ok (.add prop) ∧ st' = st.add prop) ∨
    ∃ inner prop ms V', memberAction g pfx pp member = .ok (.nest inner prop) ∧
      r inner st.visited = .ok (ms, V') ∧ st' = ⟨st.result ++ ms, st.props ++ [prop], V'⟩ := by
  obtain ⟨act, ha, h⟩ := Except.bind_eq_ok.mp h
  replace ha := mapError_some_eq_ok ha
  cases act with
  | skip => exact .inl (Except.ok.inj h).symm
  | add prop => exact .inr (.inl ⟨prop, ha, (Except.ok.inj h).symm⟩)
  | nest inner prop =>
    obtain ⟨⟨ms, V'⟩, hr, h⟩ := Except.bind_eq_ok.mp h
    exact .inr (.inr ⟨inner, prop, ms, V', ha, hr, (Except.ok.inj h).symm⟩)

end Member

/-- A call returns at once on a visited type name; otherwise it adds that name, and either
its shape is no structure and it returns no class, or it runs the loop over the members
and appends its own class. -/
theorem clazzCall_cases {g : ShapeGraph}
    {r : Shape → List String → ClazzArgs → Fueled (List AwsModel × List String)} {s : Shape}
    {V : List String} {a : ClazzArgs} {ms : List AwsModel} {V' : List String}
    (hk : a.key s ∉ V) (h : clazzCall g r s V a = .ok (ms, V')) :
    (s.body.isStructure = false ∧ ms = [] ∧ V' = a.key s :: V) ∨
    ∃ members rs st, s.body = .structure members ∧ g.resolveMembers members = .ok rs ∧
      clazzLoop g r a rs (a.key s :: V) = .ok st ∧ ms = st.result ++ [a.model s st.props] ∧
      V' = st.visited := by
  unfold clazzCall at h
  rw [if_neg hk] at h
  cases hb : s.body with
  | «structure» members =>
    rw [hb] at h
    obtain ⟨rs, hrs, h⟩ := Except.bind_eq_ok.mp h
    obtain ⟨st, hst, h⟩ := Except.bind_eq_ok.mp h
    cases Except.ok.inj h
    exact .inr ⟨members, rs, st, rfl, mapError_some_eq_ok hrs, hst, rfl, rfl⟩
  | list _ | map _ _ | string | scalar _ =>
    rw [hb] at h
    cases Except.ok.inj h
    exact .inl ⟨rfl, rfl, rfl⟩

/-! ## What a run keeps -/

/-- The member of every list of the table resolves to a simple shape or a structure. -/
def ShapeGraph.memberReady (g : ShapeGraph) : ShapeBody → Bool
  | .list m =>
    match g.resolve m with
    | .ok inner => (simpleShape inner).isSome || inner.body.isStructure
    | .error _ => true
  | _ => true

/-- Every list of the table holds simple shapes or structures. -/
def ShapeGraph.ListsReady (g : ShapeGraph) : Prop := ∀ e ∈ g.items, g.memberReady e.2.body = true

instance (g : ShapeGraph) : Decidable g.ListsReady :=
  inferInstanceAs (Decidable (∀ e ∈ g.items, g.memberReady e.2.body = true))

theorem ShapeGraph.ListsReady.structure_of_list {g : ShapeGraph} (h : g.ListsReady) {s : Shape}
    (hs : g.Holds s) {m : String} (hm : s.body = .list m) {inner : Shape}
    (hres : g.resolve m = .ok inner) (hsimple : simpleShape inner = none) :
    inner.body.isStructure = true := by
  have := h _ (findValue_mem hs)
  simp only [hm, ShapeGraph.memberReady, hres, hsimple, Option.isSome_none, Bool.false_or] at this
  exact this

/-- A shape a call may walk into: no cycle can be reached from it, and no shape of the calls
on the stack. -/
structure OffStack (g : ShapeGraph) (stack : List String) (s : Shape) : Prop where
  acyclic : ¬g.ReachesCycle s.name
  off : ∀ n ∈ stack, ¬g.Reachable s.name n

/-- Every structure of the table, not of a simple type, whose type name under `pfx` is
visited has its class in `defined`, or is being walked by a call on `stack`. -/
def Settled (g : ShapeGraph) (pfx : String) (defined visited stack : List String) : Prop :=
  ∀ t : Shape, g.Holds t → t.body.isStructure = true → simpleShape t = none →
    typeName pfx t ∈ visited → typeName pfx t ∈ defined ∨ t.name ∈ stack

section Settled

variable {g : ShapeGraph} {pfx : String} {D D' V stack : List String} {s : Shape}

theorem Settled.mono (hD : D ⊆ D') (h : Settled g pfx D V stack) : Settled g pfx D' V stack :=
  fun t ht hst hsimple hv => (h t ht hst hsimple hv).imp_left (hD ·)

/-- A call that visits its shape's type name puts its shape on the stack. -/
theorem Settled.cons_self (h : Settled g pfx D V stack) :
    Settled g pfx D (typeName pfx s :: V) (s.name :: stack) := fun t ht hst hsimple hv => by
  rcases List.mem_cons.mp hv with hv | hv
  · exact .inr (List.mem_cons.mpr (.inl (name_eq_of_typeName_eq hsimple hv).2))
  · exact (h t ht hst hsimple hv).imp_right (List.mem_cons_of_mem _)

/-- The type name of a shape that is no structure settles nothing new. -/
theorem Settled.cons_not_structure (h : Settled g pfx D V stack) (hs : g.Holds s)
    (hns : s.body.isStructure = false) : Settled g pfx D (typeName pfx s :: V) stack :=
  fun t ht hst hsimple hv => by
    rcases List.mem_cons.mp hv with hv | hv
    · rw [ht.eq hs (name_eq_of_typeName_eq hsimple hv).2, hns] at hst
      cases hst
    · exact h t ht hst hsimple hv

/-- A call that has defined its class takes its shape off the stack. -/
theorem Settled.pop (h : Settled g pfx D V (s.name :: stack)) (hs : g.Holds s)
    (hD : typeName pfx s ∈ D) : Settled g pfx D V stack := fun t ht hst hsimple hv => by
  rcases h t ht hst hsimple hv with hd | hn
  · exact .inl hd
  · rcases List.mem_cons.mp hn with hn | hn
    · rw [ht.eq hs hn]
      exact .inl hD
    · exact .inr hn

end Settled

/-- A shape a member of `s` reaches may be walked into with `s` on the stack: a path back to
`s` or to a shape below it on the stack would close a cycle `s` reaches. -/
theorem OffStack.child {g : ShapeGraph} {stack : List String} {s : Shape}
    (hoff : OffStack g stack s) (hs : g.Holds s) {c : String} (hc : c ∈ s.body.children)
    {inner : Shape} (hreach : g.Reachable c inner.name) : OffStack g (s.name :: stack) inner := by
  have hstep := (ShapeGraph.step_iff_mem_children hs).mpr hc
  have hsi : g.Reachable s.name inner.name := Relation.ReflTransGen.head hstep hreach
  refine ⟨fun ⟨n, hn, hcyc⟩ => hoff.acyclic ⟨n, hsi.trans hn, hcyc⟩, fun n hn hr => ?_⟩
  rcases List.mem_cons.mp hn with rfl | hn
  · exact hoff.acyclic ⟨s.name, .refl, Relation.TransGen.head' hstep (hreach.trans hr)⟩
  · exact hoff.off n hn (hsi.trans hr)

/-- The invariant of the loop of a call, from the classes `defined` before it: its classes
so far are in order, the visited names are settled by those classes, and its complex
properties so far name classes among them. -/
def OrderInv (g : ShapeGraph) (pfx : String) (defined stack : List String) (st : LoopState) :
    Prop :=
  BendsDefined defined st.result ∧
    Settled g pfx (defined ++ st.result.map AwsModel.name) st.visited stack ∧
    ∀ p ∈ st.props, p.isComplex = true → p.type ∈ defined ++ st.result.map AwsModel.name

/-- What a nested call `r` into a shape it may walk returns: classes in order, the visited
names settled by them, and the class of that shape when it is a structure. -/
def CallOrder (g : ShapeGraph) (pfx : String) (stack : List String)
    (r : Shape → List String → Fueled (List AwsModel × List String)) : Prop :=
  ∀ {inner : Shape} {V D : List String} {ms : List AwsModel} {V' : List String},
    g.Holds inner → OffStack g stack inner → Settled g pfx D V stack → r inner V = .ok (ms, V') →
    BendsDefined D ms ∧ Settled g pfx (D ++ ms.map AwsModel.name) V' stack ∧
      (inner.body.isStructure = true → simpleShape inner = none →
        typeName pfx inner ∈ D ++ ms.map AwsModel.name)

section Loop

variable {g : ShapeGraph} {pfx pp : String} {D stack : List String} {s : Shape}
  {r : Shape → List String → Fueled (List AwsModel × List String)}

/-- One pass of the loop over the members of `s` keeps the invariant. -/
theorem memberStep_orderInv (hlists : g.ListsReady) (hs : g.Holds s) (hoff : OffStack g stack s)
    (hr : CallOrder g pfx (s.name :: stack) r) {member : String × Shape} (hm : g.Holds member.2)
    (hchild : member.2.name ∈ s.body.children) {st st' : LoopState}
    (hst : OrderInv g pfx D (s.name :: stack) st) (h : memberStep g pfx pp r st member = .ok st') :
    OrderInv g pfx D (s.name :: stack) st' := by
  obtain ⟨hbends, hsettled, hprops⟩ := hst
  rcases memberStep_cases h with rfl | ⟨prop, ha, rfl⟩ | ⟨inner, prop, ms, V', ha, hcall, rfl⟩
  · exact ⟨hbends, hsettled, hprops⟩
  · refine ⟨hbends, hsettled, fun p hp hc => ?_⟩
    rcases List.mem_append.mp hp with hp | hp
    · exact hprops p hp hc
    · rw [List.mem_singleton.mp hp, memberAction_add_not_complex ha] at hc
      cases hc
  · obtain ⟨hinner, hreach⟩ := memberAction_nest_reachable hm ha
    obtain ⟨hb, hset, hdef⟩ := hr hinner (hoff.child hs hchild hreach) hsettled hcall
    have hnames : D ++ (st.result ++ ms).map AwsModel.name =
        D ++ st.result.map AwsModel.name ++ ms.map AwsModel.name := by simp
    refine ⟨hbends.append hb, hnames ▸ hset, fun p hp hc => ?_⟩
    rw [hnames]
    rcases List.mem_append.mp hp with hp | hp
    · exact List.mem_append_left _ (hprops p hp hc)
    · rw [List.mem_singleton.mp hp] at hc ⊢
      obtain ⟨htype, hsimple, hshape⟩ := memberAction_nest_complex ha hc
      rw [htype]
      refine hdef ?_ hsimple
      rcases hshape with ⟨-, hstruct⟩ | ⟨m, hm', hres⟩
      · exact hstruct
      · exact hlists.structure_of_list hm hm' hres hsimple

end Loop

/-- The loop over the members of a structure keeps the invariant. -/
theorem clazzLoop_orderInv {g : ShapeGraph} {D stack : List String} {s : Shape}
    {r : Shape → List String → ClazzArgs → Fueled (List AwsModel × List String)}
    (hlists : g.ListsReady) (hs : g.Holds s) (hoff : OffStack g stack s) {a : ClazzArgs}
    (hr : CallOrder g a.pfx (s.name :: stack) fun inner v => r inner v (nestedArgs a.pfx))
    {members : List (String × String)} (hb : s.body = .structure members)
    {rs : List (String × Shape)} (hrs : g.resolveMembers members = .ok rs) {W : List String}
    {st : LoopState} (h0 : Settled g a.pfx D W (s.name :: stack)) (h : clazzLoop g r a rs W = .ok st) :
    OrderInv g a.pfx D (s.name :: stack) st :=
  foldlM_invariant (OrderInv g a.pfx D (s.name :: stack))
    (fun _ hm _ _ hst hstep =>
      have hmem := ShapeGraph.resolveMembers_mem hrs hm
      memberStep_orderInv hlists hs hoff hr hmem.1 (by rw [hb]; exact hmem.2) hst hstep)
    (show OrderInv g a.pfx D (s.name :: stack) ⟨[], [], W⟩ from
      ⟨trivial, by simpa using h0, fun _ h => nomatch h⟩) h

/-- **Every call keeps the order**, at every fuel: from visited names settled by the
classes `D`, on a shape it may walk whose visited name is its type name, it returns classes
in order after `D`, and, when its class is named by that type name, visited names settled by
`D` and its classes, among which is its class. -/
theorem clazzModel_order {g : ShapeGraph} (hlists : g.ListsReady) :
    ∀ (fuel : Nat) {s : Shape} {V D stack : List String} {a : ClazzArgs} {ms : List AwsModel}
      {V' : List String},
      a.key s = typeName a.pfx s → g.Holds s → OffStack g stack s → Settled g a.pfx D V stack →
      clazzModel g fuel s V a = .ok (ms, V') →
      BendsDefined D ms ∧ (strOr a.clazzName (typeName a.pfx s) = typeName a.pfx s →
        Settled g a.pfx (D ++ ms.map AwsModel.name) V' stack ∧
        (s.body.isStructure = true → simpleShape s = none →
          typeName a.pfx s ∈ D ++ ms.map AwsModel.name))
  | 0, _, _, _, _, _, _, _, _, _, _, _, h => nomatch h
  | fuel + 1, s, V, D, stack, a, ms, V', hkey, hs, hoff, hset, h => by
    have hr : CallOrder g a.pfx (s.name :: stack)
        fun inner v => clazzModel g fuel inner v (nestedArgs a.pfx) := by
      intro inner W D' ms' W' hinner hoff' hset' hcall
      have := clazzModel_order hlists fuel (by rw [nestedArgs_key, nestedArgs_pfx]) hinner hoff'
        (by rwa [nestedArgs_pfx]) hcall
      rw [nestedArgs_pfx] at this
      exact ⟨this.1, this.2 rfl⟩
    rw [clazzModel_succ] at h
    by_cases hk : a.key s ∈ V
    · rw [clazzCall_of_mem hk] at h
      cases Except.ok.inj h
      refine ⟨trivial, fun _ => ⟨by simpa using hset, fun hst hsimple => ?_⟩⟩
      rw [hkey] at hk
      rcases hset s hs hst hsimple hk with hd | hn
      · simpa using hd
      · exact absurd .refl (hoff.off _ hn)
    · rcases clazzCall_cases hk h with ⟨hns, rfl, rfl⟩ | ⟨members, rs, st, hb, hrs, hloop, rfl, rfl⟩
      · refine ⟨trivial, fun _ => ⟨?_, fun hst => absurd (hns.symm.trans hst) Bool.false_ne_true⟩⟩
        rw [List.map_nil, List.append_nil, hkey]
        exact hset.cons_not_structure hs hns
      · have h0 : Settled g a.pfx D (a.key s :: V) (s.name :: stack) := hkey ▸ hset.cons_self
        obtain ⟨hbends, hsettled, hprops⟩ := clazzLoop_orderInv hlists hs hoff hr hb hrs h0 hloop
        refine ⟨hbends.append ⟨hprops, trivial⟩, fun hname => ?_⟩
        have hmem : typeName a.pfx s ∈ D ++ (st.result ++ [a.model s st.props]).map AwsModel.name := by
          simp [ClazzArgs.model_name, hname]
        exact ⟨(hsettled.mono (by simp)).pop hs hmem, fun _ _ => hmem⟩

/-- **The classes of a run of `clazz_model` are in order.** Called with a prefix and a fresh
`visited` set, on a table whose lists hold simple shapes or structures, on a shape from which
no cycle can be reached, `clazz_model` returns classes whose complex properties each name a
class it returned before: every `Bend(T.mapping)` and `Optional[T]` of a generated class
refers to a class defined above it. -/
theorem clazzModel_bendsDefined (g : ShapeGraph) (fuel : Nat) (s : Shape) (a : ClazzArgs)
    (hlists : g.ListsReady) (hpfx : a.resourcePrefix.isSome = true) (hs : g.Holds s)
    (hacyc : ¬g.ReachesCycle s.name) {ms : List AwsModel} {visited : List String}
    (h : clazzModel g fuel s [] a = .ok (ms, visited)) : BendsDefined [] ms := by
  obtain ⟨p, hp⟩ := Option.isSome_iff_exists.mp hpfx
  have hkey : a.key s = typeName a.pfx s := by
    simp only [ClazzArgs.key, ClazzArgs.pfx, hp, renderPrefix_some, strOr_some]
  exact (clazzModel_order hlists fuel hkey hs ⟨hacyc, fun _ h => absurd h (List.not_mem_nil _)⟩
    (fun _ _ _ _ h => absurd h (List.not_mem_nil _)) h).1

/-- A table in which every step from a shape to a member lowers a rank has no cycle. -/
theorem ShapeGraph.not_reachesCycle_of_rank {g : ShapeGraph} (rank : String → Nat)
    (h : ∀ e ∈ g.items, ∀ c ∈ e.2.body.children, rank c < rank e.1) (name : String) :
    ¬g.ReachesCycle name := by
  have hstep : ∀ {a b}, g.Step a b → rank b < rank a :=
    fun ⟨_, hd, hb⟩ => h _ (findValue_mem hd) _ hb
  have htrans : ∀ {a b}, Relation.TransGen g.Step a b → rank b < rank a := by
    intro a b hab
    induction hab with
    | single hab => exact hstep hab
    | tail _ hbc ih => exact lt_trans (hstep hbc) ih
  exact fun ⟨_, _, hcyc⟩ => lt_irrefl _ (htrans hcyc)

/-- A volume with a list of attachments and a state, each a structure. -/
def volumeTable : ShapeGraph :=
  PyDict.ofList
    [("Volume", ⟨"A volume.", .structure
        [("VolumeId", "String"), ("Attachments", "AttachmentList"), ("State", "VolumeState")]⟩),
     ("AttachmentList", ⟨"", .list "Attachment"⟩),
     ("Attachment", ⟨"", .structure [("InstanceId", "String"), ("Device", "String")]⟩),
     ("VolumeState", ⟨"", .structure [("Code", "Integer"), ("Name", "String")]⟩),
     ("Integer", ⟨"", .scalar "integer"⟩),
     ("String", ⟨"", .string⟩)]

/-- The shape the table holds under `"Volume"`. -/
def volumeShape : Shape :=
  ⟨"Volume", "A volume.", .structure
    [("VolumeId", "String"), ("Attachments", "AttachmentList"), ("State", "VolumeState")]⟩

/-- How far a shape of `volumeTable` is from its leaves. -/
def volumeRank (name : String) : Nat :=
  if name = "Volume" then 3 else if name = "AttachmentList" then 2
  else if name = "Attachment" ∨ name = "VolumeState" then 1 else 0

theorem clazzModel_bendsDefined_volumeTable :
    volumeTable.ListsReady ∧ volumeTable.Holds volumeShape ∧
      ¬volumeTable.ReachesCycle volumeShape.name ∧
      ∃ ms visited, clazzModel volumeTable 8 volumeShape [] { resourcePrefix := some "Ec2" } =
        .ok (ms, visited) ∧ BendsDefined [] ms := by
  have hlists : volumeTable.ListsReady := by decide
  have hs : volumeTable.Holds volumeShape := rfl
  have hacyc : ¬volumeTable.ReachesCycle volumeShape.name :=
    ShapeGraph.not_reachesCycle_of_rank volumeRank (by decide) _
  obtain ⟨ms, visited, h⟩ : ∃ ms visited,
      clazzModel volumeTable 8 volumeShape [] { resourcePrefix := some "Ec2" } = .ok (ms, visited) :=
    ⟨_, _, rfl⟩
  exact ⟨hlists, hs, hacyc, ms, visited, h,
    clazzModel_bendsDefined volumeTable 8 volumeShape { resourcePrefix := some "Ec2" } hlists rfl hs
      hacyc h⟩

/-- On the cyclic `instanceTable`, `AwsEc2Instance` bends with its own mapping, not yet
defined when its class body runs. -/
example : ∃ ms visited,
    clazzModel instanceTable 5 instanceShape [] { resourcePrefix := some "Ec2" } = .ok (ms, visited) ∧
      ¬BendsDefined [] ms :=
  ⟨_, _, rfl, by decide⟩

end AwsModelGen

end Resoto
