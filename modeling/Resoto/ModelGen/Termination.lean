import Resoto.ModelGen.ClazzModel

/-!
# `clazz_model` ends on every shape table

A botocore shape table may be cyclic: a structure can reach itself through members, list
members and map values, and `clazz_model` walks into all three. What ends the recursion is
the `visited` set that all calls share. A call whose shape's type name is already there
returns `[]` at once; any other call adds that name before it walks into a member. Every name
a nested call adds is the type name of a shape of the table, so the number of shapes whose
type name is not yet visited (`unvisited`) drops with each nested call that does not return
at once. A fuel of two more than the size of the table is therefore never used up
(`clazzModel_ne_none`), and more fuel gives the same outcome (`clazzModel_eq_of_le`), so the
model's outcome is the program's.

`CallResult` says what one call returns. `clazzModel_callResult` proves it of every call by
induction over the fuel, from one lemma per call (`clazzCall_callResult`) and one per pass
of the loop over a structure's members (`memberStep_loopInv`).
-/

namespace Resoto

namespace AwsModelGen

variable {g : ShapeGraph}

/-! ## Reachable type names -/

/-- The type names, under the prefix `pfx`, of the shapes of the table reachable from one
of `roots`. -/
def ShapeGraph.ReachableName (g : ShapeGraph) (pfx : String) (roots : List String)
    (k : String) : Prop :=
  ∃ s, g.Holds s ∧ (∃ root ∈ roots, g.Reachable root s.name) ∧ k = typeName pfx s

/-- A name reachable from the members of a shape `s` is reachable from a root that reaches `s`. -/
theorem ShapeGraph.ReachableName.of_children {pfx : String} {roots : List String} {s : Shape}
    {k : String} (h : g.ReachableName pfx s.body.children k) (hs : g.Holds s) {root : String}
    (hroot : root ∈ roots) (hr : g.Reachable root s.name) : g.ReachableName pfx roots k := by
  obtain ⟨t, ht, ⟨c, hc, hct⟩, rfl⟩ := h
  exact ⟨t, ht, ⟨root, hroot, hr.trans (Relation.ReflTransGen.head ⟨_, hs, hc⟩ hct)⟩, rfl⟩

/-- The nested call of a member walks into a shape of the table that the member's shape reaches. -/
theorem memberAction_nest_reachable {pfx pp : String} {member : String × Shape} {inner : Shape}
    {prop : AwsProperty} (hm : g.Holds member.2)
    (h : memberAction g pfx pp member = .ok (.nest inner prop)) :
    g.Holds inner ∧ g.Reachable member.2.name inner.name := by
  rcases memberAction_nest h with rfl | ⟨ref, href, hres⟩
  · exact ⟨hm, .refl⟩
  · obtain ⟨rfl, hinner⟩ := ShapeGraph.resolve_eq_ok hres
    exact ⟨hinner, .single ⟨_, hm, href⟩⟩

/-! ## What a call returns -/

/-- What a walk of `clazz_model` from the visited set `visited` adds besides the type name of
its own shape: names `added`, each once, none visited before, each the type name of a shape
reachable from `roots`; and the models of its nested calls, `nested`, each named by a
distinct name of `added`. -/
structure Walked (g : ShapeGraph) (pfx : String) (roots visited added : List String)
    (nested : List AwsModel) : Prop where
  nodup : added.Nodup
  fresh : ∀ k ∈ added, k ∉ visited
  reachable : ∀ k ∈ added, g.ReachableName pfx roots k
  names : List.Subperm (nested.map AwsModel.name) added

theorem Walked.nil (pfx : String) (roots visited : List String) : Walked g pfx roots visited [] [] :=
  ⟨List.nodup_nil, nofun, nofun, List.Subperm.refl []⟩

/-- The visited names after a call that did not return at once stay distinct: the call's
new names `added'`, its shape's type name `k`, then the names before, `added`. -/
theorem nodup_visited_after {added added' : List String} {k : String} (hn : added.Nodup)
    (hn' : added'.Nodup) (hk : k ∉ added) (hfresh : ∀ x ∈ added', x ∉ k :: added) :
    (added' ++ k :: added).Nodup :=
  List.nodup_append.mpr ⟨hn', List.nodup_cons.mpr ⟨hk, hn⟩, fun x h₁ h₂ => hfresh x h₁ h₂⟩

/-- The models a call returns are named by the names its walk adds and by its shape's own
type name `k`. -/
theorem names_subperm_of_call {ms nested : List AwsModel} {added : List String} {k : String}
    (hn : List.Subperm (nested.map AwsModel.name) added)
    (hms : ms = [] ∨ ∃ m, ms = nested ++ [m] ∧ m.name = k) :
    List.Subperm (ms.map AwsModel.name) (added ++ [k]) := by
  rcases hms with rfl | ⟨m, rfl, hm⟩
  · exact List.nil_subperm
  · rw [List.map_append, List.map_singleton, hm]
    exact (List.subperm_append_right _).mpr hn

/-- Names so far within the visited names `added`, and a call's names within its own, are
together within the visited names after the call. -/
theorem subperm_visited_after {N N' added added' : List String} {k : String}
    (h : List.Subperm N added) (h' : List.Subperm N' (added' ++ [k])) :
    List.Subperm (N ++ N') (added' ++ k :: added) :=
  (((List.subperm_append_right _).mpr h).trans ((List.subperm_append_left _).mpr h')).trans
    (List.perm_append_comm.trans (by simp)).subperm

/-- The walk of a structure's loop after a nested call into `inner` that did not return at
once: that call's walk, then `inner`'s type name, then the walk so far. -/
theorem Walked.nest {pfx : String} {roots W added : List String} {nested : List AwsModel}
    (hw : Walked g pfx roots W added nested) {inner : Shape} (hinner : g.Holds inner)
    {root : String} (hroot : root ∈ roots) (hreach : g.Reachable root inner.name)
    (hk : typeName pfx inner ∉ added ++ W) {added' : List String} {nested' : List AwsModel}
    (hw' : Walked g pfx inner.body.children (typeName pfx inner :: (added ++ W)) added' nested')
    {ms : List AwsModel} (hms : ms = [] ∨ ∃ m, ms = nested' ++ [m] ∧ m.name = typeName pfx inner) :
    Walked g pfx roots W (added' ++ typeName pfx inner :: added) (nested ++ ms) := by
  have hsub : typeName pfx inner :: added ⊆ typeName pfx inner :: (added ++ W) :=
    List.cons_subset_cons _ (List.subset_append_left _ _)
  refine ⟨nodup_visited_after hw.nodup hw'.nodup (fun h => hk (List.mem_append_left _ h))
      fun x h₁ h₂ => hw'.fresh x h₁ (hsub h₂),
    fun k hk' hW => ?_, fun k hk' => ?_,
    by rw [List.map_append]; exact subperm_visited_after hw.names (names_subperm_of_call hw'.names hms)⟩
  · rcases List.mem_append.mp hk' with h | h
    · exact hw'.fresh k h (List.mem_cons_of_mem _ (List.mem_append_right _ hW))
    rcases List.mem_cons.mp h with rfl | h
    · exact hk (List.mem_append_right _ hW)
    · exact hw.fresh k h hW
  · rcases List.mem_append.mp hk' with h | h
    · exact (hw'.reachable k h).of_children hinner hroot hreach
    rcases List.mem_cons.mp h with rfl | h
    · exact ⟨inner, hinner, ⟨root, hroot, hreach⟩, rfl⟩
    · exact hw.reachable k h

/-- What a call of `clazz_model(shape, visited, …)` returns: `[]` and `visited` unchanged
when the shape's type name is visited; otherwise `visited` with that name and the names of
the call's walk added, and the models of the walk, followed by the shape's own class when it
is a structure. -/
def CallResult (g : ShapeGraph) (s : Shape) (V : List String) (a : ClazzArgs)
    (res : List AwsModel × List String) : Prop :=
  (a.key s ∈ V ∧ res.1 = [] ∧ res.2 = V) ∨
  (a.key s ∉ V ∧ ∃ added nested, res.2 = added ++ a.key s :: V ∧
    Walked g a.pfx s.body.children (a.key s :: V) added nested ∧
    (res.1 = [] ∨ ∃ props, res.1 = nested ++ [a.model s props]))

theorem CallResult.subset {s : Shape} {V : List String} {a : ClazzArgs}
    {res : List AwsModel × List String} (h : CallResult g s V a res) : V ⊆ res.2 := by
  rcases h with ⟨-, -, h⟩ | ⟨-, added, -, h, -⟩ <;> rw [h]
  · exact List.Subset.refl V
  · exact fun k hk => List.mem_append_right _ (List.mem_cons_of_mem _ hk)

/-- The invariant of the loop over a structure's members that started from `W`: the visited
set is `W` with the names of the walk so far in front, and the models so far are the walk's. -/
def LoopInv (g : ShapeGraph) (pfx : String) (roots W : List String) (st : LoopState) : Prop :=
  ∃ added, st.visited = added ++ W ∧ Walked g pfx roots W added st.result

section Call

variable {r : Shape → List String → ClazzArgs → Fueled (List AwsModel × List String)}

/-- One pass of the loop keeps its invariant, for a member the table holds under a name of
`roots`, when every nested call returns what `CallResult` says. -/
theorem memberStep_loopInv {pfx pp : String} {roots W : List String}
    (hr : ∀ {inner W' res}, r inner W' (nestedArgs pfx) = .ok res →
      CallResult g inner W' (nestedArgs pfx) res)
    {member : String × Shape} (hm : g.Holds member.2) (hroot : member.2.name ∈ roots)
    {st st' : LoopState} (hst : LoopInv g pfx roots W st)
    (h : memberStep g pfx pp (fun inner v => r inner v (nestedArgs pfx)) st member = .ok st') :
    LoopInv g pfx roots W st' := by
  obtain ⟨added, hv, hw⟩ := hst
  rcases memberStep_eq_ok h with ⟨hres, hvis⟩ | ⟨inner, prop, ms, ha, hcall, hres⟩
  · exact ⟨added, hvis.trans hv, hres ▸ hw⟩
  obtain ⟨hinner, hreach⟩ := memberAction_nest_reachable hm ha
  rcases hr hcall with ⟨-, hms, hvis⟩ | ⟨hk, added', nested', hvis, hw', hms⟩
  · exact ⟨added, hvis.trans hv, by rw [hres, show ms = [] from hms, List.append_nil]; exact hw⟩
  · simp only [nestedArgs_key, nestedArgs_pfx] at hk hvis hw' hms
    rw [hv] at hk hvis hw'
    exact ⟨added' ++ typeName pfx inner :: added, by simp [hvis], hres ▸ hw.nest hinner hroot
      hreach hk hw' (hms.imp id fun ⟨props, h⟩ => ⟨_, h, nestedArgs_model_name pfx inner props⟩)⟩

/-- The loop over the resolved members of a structure keeps its invariant. -/
theorem clazzLoop_loopInv {a : ClazzArgs}
    (hr : ∀ {inner W' res}, r inner W' (nestedArgs a.pfx) = .ok res →
      CallResult g inner W' (nestedArgs a.pfx) res)
    {members : List (String × String)} {rs : List (String × Shape)}
    (hrs : g.resolveMembers members = .ok rs) {W : List String} {st : LoopState}
    (h : clazzLoop g r a rs W = .ok st) : LoopInv g a.pfx (members.map Prod.snd) W st :=
  foldlM_invariant (LoopInv g a.pfx (members.map Prod.snd) W)
    (fun _ hm _ _ hst hstep =>
      have hmem := ShapeGraph.resolveMembers_mem hrs hm
      memberStep_loopInv hr hmem.1 hmem.2 hst hstep)
    ⟨[], rfl, Walked.nil _ _ _⟩ h

/-- One call returns what `CallResult` says, when its nested calls do. -/
theorem clazzCall_callResult
    (hr : ∀ {inner W' a' res}, r inner W' a' = .ok res → CallResult g inner W' a' res)
    {s : Shape} {V : List String} {a : ClazzArgs} {res : List AwsModel × List String}
    (h : clazzCall g r s V a = .ok res) : CallResult g s V a res := by
  obtain ⟨ms, V'⟩ := res
  rcases clazzCall_eq_ok h with ⟨hk, rfl, rfl⟩ | ⟨hk, ⟨rfl, rfl⟩ | ⟨members, rs, st, hb, hrs, hst, rfl, rfl⟩⟩
  · exact .inl ⟨hk, rfl, rfl⟩
  · exact .inr ⟨hk, [], [], rfl, Walked.nil _ _ _, .inl rfl⟩
  · obtain ⟨added, hv, hw⟩ := clazzLoop_loopInv hr hrs hst
    have hroots : s.body.children = members.map Prod.snd := by rw [hb]; rfl
    exact .inr ⟨hk, added, st.result, hv, hroots ▸ hw, .inr ⟨st.props, rfl⟩⟩

end Call

/-- **Every call returns what `CallResult` says**, at every fuel. -/
theorem clazzModel_callResult :
    ∀ (fuel : Nat) {s : Shape} {V : List String} {a : ClazzArgs} {res : List AwsModel × List String},
      clazzModel g fuel s V a = .ok res → CallResult g s V a res
  | 0, _, _, _, _, h => nomatch h
  | fuel + 1, _, _, _, _, h => clazzCall_callResult (clazzModel_callResult fuel) h

/-! ## The measure: shapes whose type name is not visited -/

/-- The number of shapes of the table whose type name under `pfx` is not in `visited`. -/
def unvisited (g : ShapeGraph) (pfx : String) (visited : List String) : Nat :=
  g.items.countP fun e => typeName pfx ⟨e.1, e.2.documentation, e.2.body⟩ ∉ visited

theorem unvisited_le_length (pfx : String) (V : List String) : unvisited g pfx V ≤ g.items.length :=
  List.countP_le_length _

theorem unvisited_anti {pfx : String} {V W : List String} (h : V ⊆ W) :
    unvisited g pfx W ≤ unvisited g pfx V :=
  List.countP_mono_left fun _ _ hW => decide_eq_true fun hV => of_decide_eq_true hW (h hV)

/-- Of two counts over one list, the smaller predicate counts fewer when some element of the
list satisfies only the larger one. -/
theorem countP_lt_of_mem {α : Type} {p q : α → Bool} {l : List α} (h : ∀ x ∈ l, q x → p x)
    {x : α} (hx : x ∈ l) (hp : p x) (hq : ¬q x) : l.countP q < l.countP p :=
  calc l.countP q
      = (l.filter p).countP q := by
        rw [List.countP_filter]
        exact List.countP_congr fun y hy => by
          have := h y hy
          cases hqy : q y <;> simp_all
    _ = ((l.filter p).filter q).length := List.countP_eq_length_filter _ _
    _ < (l.filter p).length :=
        List.length_filter_lt_length_iff_exists.mpr ⟨x, List.mem_filter.mpr ⟨hx, hp⟩, hq⟩
    _ = l.countP p := (List.countP_eq_length_filter _ _).symm

/-- Visiting the type name of a shape of the table lowers the measure. -/
theorem unvisited_cons_lt {pfx : String} {V : List String} {s : Shape} (hs : g.Holds s)
    (hk : typeName pfx s ∉ V) : unvisited g pfx (typeName pfx s :: V) < unvisited g pfx V :=
  countP_lt_of_mem (fun _ _ h => by simp_all) (findValue_mem hs) (by simpa using hk) (by simp)

/-! ## Termination -/

/-- The loop over a structure's members does not run out of fuel when no nested call does
from a visited set at least the loop's first one. -/
theorem clazzLoop_ne_none {r : Shape → List String → ClazzArgs → Fueled (List AwsModel × List String)}
    {a : ClazzArgs} {members : List (String × String)} {rs : List (String × Shape)}
    (hrs : g.resolveMembers members = .ok rs) {W : List String}
    (hgrow : ∀ {inner W' res}, r inner W' (nestedArgs a.pfx) = .ok res → W' ⊆ res.2)
    (hr : ∀ {inner W'}, g.Holds inner → W ⊆ W' → r inner W' (nestedArgs a.pfx) ≠ .error none) :
    clazzLoop g r a rs W ≠ .error none :=
  foldlM_ne_none (fun st => W ⊆ st.visited)
    (fun _ _ _ _ hst h => by
      rcases memberStep_eq_ok h with ⟨-, hv⟩ | ⟨_, _, _, -, hcall, -⟩
      · exact hv ▸ hst
      · exact hst.trans (hgrow hcall))
    (fun _ hm _ hst => memberStep_ne_none fun _ _ ha =>
      hr (memberAction_nest_reachable (ShapeGraph.resolveMembers_mem hrs hm).1 ha).1 hst)
    (List.Subset.refl W)

/-- A nested call, under the prefix `pfx`, on a shape of the table does not run out of fuel
when the fuel exceeds the measure. -/
theorem clazzModel_nested_ne_none (pfx : String) :
    ∀ (fuel : Nat) {s : Shape} {V : List String}, g.Holds s → unvisited g pfx V < fuel →
      clazzModel g fuel s V (nestedArgs pfx) ≠ .error none
  | 0, _, _, _, hu => absurd hu (Nat.not_lt_zero _)
  | fuel + 1, s, V, hs, hu => by
    rw [clazzModel_succ]
    by_cases hk : typeName pfx s ∈ V
    · rw [clazzCall_of_mem (show (nestedArgs pfx).key s ∈ V from hk)]; exact nofun
    have hlt : unvisited g pfx ((nestedArgs pfx).key s :: V) < unvisited g pfx V :=
      unvisited_cons_lt hs hk
    exact clazzCall_ne_none fun _ _ _ hrs =>
      clazzLoop_ne_none hrs (fun h => (clazzModel_callResult fuel h).subset) fun hinner hW => by
        rw [nestedArgs_pfx]
        exact clazzModel_nested_ne_none pfx fuel hinner
          (Nat.lt_of_le_of_lt (unvisited_anti hW) (by omega))

/-- A call does not run out of fuel when the fuel is two more than the size of the table. -/
theorem clazzModel_ne_none {fuel : Nat} (hfuel : g.items.length + 2 ≤ fuel) (s : Shape)
    (V : List String) (a : ClazzArgs) : clazzModel g fuel s V a ≠ .error none := by
  obtain ⟨f, rfl⟩ : ∃ f, fuel = f + 1 := ⟨fuel - 1, by omega⟩
  exact clazzCall_ne_none fun _ _ _ hrs =>
    clazzLoop_ne_none hrs (fun h => (clazzModel_callResult f h).subset)
      fun hinner _ => clazzModel_nested_ne_none a.pfx f hinner
        (Nat.lt_of_le_of_lt (unvisited_le_length _ _) (by omega))

/-- One more fuel changes nothing once a call does not run out of it. -/
theorem clazzModel_succ_eq :
    ∀ (fuel : Nat) {s : Shape} {V : List String} {a : ClazzArgs},
      clazzModel g fuel s V a ≠ .error none → clazzModel g (fuel + 1) s V a = clazzModel g fuel s V a
  | 0, _, _, _, h => absurd rfl h
  | fuel + 1, _, _, _, h => clazzCall_congr (fun _ _ _ => clazzModel_succ_eq fuel) h

theorem clazzModel_eq_of_le {fuel fuel' : Nat} {s : Shape} {V : List String} {a : ClazzArgs}
    (h : clazzModel g fuel s V a ≠ .error none) (hle : fuel ≤ fuel') :
    clazzModel g fuel' s V a = clazzModel g fuel s V a := by
  induction hle with
  | refl => rfl
  | step _ ih => rw [clazzModel_succ_eq _ (ih ▸ h), ih]

/-- A walk adds no more names than the table has shapes. -/
theorem Walked.length_le {pfx : String} {roots V added : List String} {nested : List AwsModel}
    (hw : Walked g pfx roots V added nested) : added.length ≤ g.items.length := by
  have hsub : added ⊆ g.items.map fun e => typeName pfx ⟨e.1, e.2.documentation, e.2.body⟩ :=
    fun k hk => by
      obtain ⟨s, hs, -, rfl⟩ := hw.reachable k hk
      exact List.mem_map.mpr ⟨_, findValue_mem hs, rfl⟩
  simpa using (List.subperm_of_subset hw.nodup hsub).length_le

/-- **`clazz_model` terminates on every shape table**, cyclic ones included: with two more fuel
than the table has shapes a call does not run out of fuel, and more fuel gives the same
outcome. A call returns at once when its shape's type name is visited. Otherwise it adds
that name and names `added`, each new, each once and each the type name of a shape reachable
from the shape's members, so no more names than the table has shapes. -/
theorem clazzModel_terminates (g : ShapeGraph) (shape : Shape) (visited : List String)
    (args : ClazzArgs) (fuel : Nat) (hfuel : g.items.length + 2 ≤ fuel) :
    clazzModel g fuel shape visited args ≠ .error none ∧
    (∀ fuel', fuel ≤ fuel' →
      clazzModel g fuel' shape visited args = clazzModel g fuel shape visited args) ∧
    ∀ ms visited', clazzModel g fuel shape visited args = .ok (ms, visited') →
      (args.key shape ∈ visited ∧ ms = [] ∧ visited' = visited) ∨
      (args.key shape ∉ visited ∧ ∃ added, visited' = added ++ args.key shape :: visited ∧
        added.Nodup ∧ added.length ≤ g.items.length ∧
        ∀ k ∈ added, k ∉ args.key shape :: visited ∧ g.ReachableName args.pfx shape.body.children k) := by
  have hne := clazzModel_ne_none hfuel shape visited args
  refine ⟨hne, fun _ => clazzModel_eq_of_le hne, fun ms visited' h => ?_⟩
  rcases clazzModel_callResult fuel h with hret | ⟨hk, added, _, hv, hw, -⟩
  · exact .inl hret
  · exact .inr ⟨hk, added, hv, hw.nodup, hw.length_le, fun k hk' => ⟨hw.fresh k hk', hw.reachable k hk'⟩⟩

/-- A cyclic table: an instance names its parent instance and lists its child instances. -/
def instanceTable : ShapeGraph :=
  PyDict.ofList
    [("Instance", ⟨"An instance.", .structure
        [("InstanceId", "String"), ("Parent", "Instance"), ("Children", "InstanceList")]⟩),
     ("InstanceList", ⟨"", .list "Instance"⟩),
     ("String", ⟨"", .string⟩)]

/-- The shape the table holds under `"Instance"`. -/
def instanceShape : Shape :=
  ⟨"Instance", "An instance.", .structure
    [("InstanceId", "String"), ("Parent", "Instance"), ("Children", "InstanceList")]⟩

theorem clazzModel_terminates_instanceTable :
    instanceTable.items.length + 2 ≤ 5 ∧
    (clazzModel instanceTable 5 instanceShape [] {} ≠ .error none ∧
    (∀ fuel', 5 ≤ fuel' →
      clazzModel instanceTable fuel' instanceShape [] {} = clazzModel instanceTable 5 instanceShape [] {}) ∧
    ∀ ms visited', clazzModel instanceTable 5 instanceShape [] {} = .ok (ms, visited') →
      (({} : ClazzArgs).key instanceShape ∈ ([] : List String) ∧ ms = [] ∧ visited' = []) ∨
      (({} : ClazzArgs).key instanceShape ∉ ([] : List String) ∧
        ∃ added, visited' = added ++ [({} : ClazzArgs).key instanceShape] ∧
        added.Nodup ∧ added.length ≤ instanceTable.items.length ∧
        ∀ k ∈ added, k ∉ [({} : ClazzArgs).key instanceShape] ∧
          instanceTable.ReachableName ({} : ClazzArgs).pfx instanceShape.body.children k)) :=
  ⟨by decide, clazzModel_terminates instanceTable instanceShape [] {} 5 (by decide)⟩

end AwsModelGen

end Resoto
