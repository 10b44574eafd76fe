import Resoto.ModelGen.ClassOrder
import Resoto.ModelGen.ClassNames

/-!
# The property names of a generated class

`clazz_model` names the property of a member `name` as `prop_prefix + to_snake(name)`. The
three substitutions of `to_snake` only put underscores in or take them out, and `lower`
changes only the case of ASCII letters, so a snake name keeps the other characters of the
member name, in order (`toSnake_skeleton`). Two members whose names differ in more than
case and underscores therefore get properties of different names, and a structure whose
members all differ so gets a class that declares each of its properties once; so does every
class of a structure it walks into (`clazzModel_propsApart`), and every class `all_models`
returns (`allModels_propsApart`). Members that differ only so do collide: `InstanceId` and
`instanceId` both become `instance_id`.
-/

namespace Resoto

namespace AwsModelGen

/-! ## Letter case -/

theorem toNat_ofNat_of_lt {n : Nat} (h : n < 55296) : (Char.ofNat n).toNat = n := by
  rw [Char.ofNat, dif_pos (Or.inl h)]
  rfl

theorem toNat_toLower (c : Char) :
    c.toLower.toNat = if 65 ≤ c.toNat ∧ c.toNat ≤ 90 then c.toNat + 32 else c.toNat := by
  unfold Char.toLower
  split
  · rename_i h
    rw [if_pos h]
    exact toNat_ofNat_of_lt (by omega)
  · rename_i h
    rw [if_neg h]

/-- `lower` keeps `_` and makes no other character `_`. -/
theorem toLower_eq_underscore_iff (c : Char) : c.toLower = '_' ↔ c = '_' := by
  refine ⟨fun h => ?_, fun h => by rw [h]; rfl⟩
  have hn := congrArg Char.toNat h
  have hu : '_'.toNat = 95 := rfl
  rw [toNat_toLower] at hn
  split at hn
  · omega
  · exact (Char.ofNat_toNat c).symm.trans (by rw [hn]; rfl)

/-! ## What `to_snake` keeps -/

/-- The characters of `l` other than `_`. -/
def skeleton (l : List Char) : List Char := l.filter (· != '_')

/-- What `to_snake` keeps of a name: its lower-cased characters other than `_`. -/
def nameSkeleton (name : String) : List Char := skeleton (lower name).data

theorem skeleton_underscore_cons (l : List Char) : skeleton ('_' :: l) = skeleton l := rfl

theorem skeleton_cons_congr (c : Char) {l l' : List Char} (h : skeleton l = skeleton l') :
    skeleton (c :: l) = skeleton (c :: l') := by
  unfold skeleton at *
  simp only [List.filter_cons, h]

theorem skeleton_map_toLower (l : List Char) :
    skeleton (l.map Char.toLower) = (skeleton l).map Char.toLower := by
  unfold skeleton
  rw [List.filter_map]
  congr 1
  refine List.filter_congr fun c _ => ?_
  rw [Function.comp_apply, Bool.eq_iff_iff, bne_iff_ne, bne_iff_ne, ne_eq, ne_eq,
    toLower_eq_underscore_iff]

mutual

theorem skeleton_snakeWordsFrom (c : Char) :
    ∀ l, skeleton (snakeWordsFrom c l) = skeleton (c :: l)
  | u :: l :: rest => by
    unfold snakeWordsFrom
    split
    · exact skeleton_cons_congr c ((skeleton_underscore_cons _).trans
        (skeleton_cons_congr u (skeleton_cons_congr l (skeleton_snakeWordsRun rest))))
    · exact skeleton_cons_congr c (skeleton_snakeWordsFrom u (l :: rest))
  | [] => rfl
  | [_] => rfl
termination_by structural l => l

theorem skeleton_snakeWordsRun : ∀ l, skeleton (snakeWordsRun l) = skeleton l
  | x :: xs => by
    unfold snakeWordsRun
    split
    · exact skeleton_cons_congr x (skeleton_snakeWordsRun xs)
    · exact skeleton_snakeWordsFrom x xs
  | [] => rfl
termination_by structural l => l

end

theorem skeleton_snakeWords : ∀ l, skeleton (snakeWords l) = skeleton l
  | c :: rest => skeleton_snakeWordsFrom c rest
  | [] => rfl

theorem skeleton_snakeUnderscores (l : List Char) :
    skeleton (snakeUnderscores l) = skeleton l := by
  induction l using snakeUnderscores.induct with
  | case1 u rest hu ih =>
    rw [snakeUnderscores, if_pos hu, skeleton_underscore_cons, skeleton_underscore_cons,
      skeleton_underscore_cons]
    exact skeleton_cons_congr u ih
  | case2 u rest hu ih =>
    rw [snakeUnderscores, if_neg hu]
    exact skeleton_cons_congr '_' ih
  | case3 c rest _ ih =>
    rw [snakeUnderscores]
    · exact skeleton_cons_congr c ih
    · assumption
  | case4 => rfl

theorem skeleton_snakeCase (l : List Char) : skeleton (snakeCase l) = skeleton l := by
  induction l using snakeCase.induct with
  | case1 c u rest h ih =>
    rw [snakeCase, if_pos h]
    exact skeleton_cons_congr c ((skeleton_underscore_cons _).trans (skeleton_cons_congr u ih))
  | case2 c u rest h ih =>
    rw [snakeCase, if_neg h]
    exact skeleton_cons_congr c ih
  | case3 cs h =>
    match cs, h with
    | [], _ | [_], _ => rfl
    | _ :: _ :: _, h => exact (h _ _ _ rfl).elim

/-- `to_snake` only puts in or takes out underscores and lowers the case of letters. -/
theorem toSnake_skeleton (name : String) : skeleton (toSnake name).data = nameSkeleton name := by
  show skeleton ((snakeCase (snakeUnderscores (snakeWords name.data))).map Char.toLower) =
    skeleton (name.data.map Char.toLower)
  rw [skeleton_map_toLower, skeleton_map_toLower, skeleton_snakeCase, skeleton_snakeUnderscores,
    skeleton_snakeWords]

/-- Two names whose skeletons differ get different snake names. -/
theorem toSnake_injOn {names : List String} (h : (names.map nameSkeleton).Nodup) (pp : String) :
    (names.map fun n => pp ++ toSnake n).Nodup := by
  refine (List.Nodup.of_map nameSkeleton h).map_on fun x hx y hy hxy =>
    List.inj_on_of_nodup_map h hx hy ?_
  have hsnake : toSnake x = toSnake y :=
    String.ext (List.append_cancel_left (congrArg String.data hxy))
  rw [← toSnake_skeleton x, ← toSnake_skeleton y, hsnake]

/-! ## The properties of one class -/

/-- The property a member adds, if any. -/
def MemberAction.property? : MemberAction → Option AwsProperty
  | .skip => none
  | .add prop | .nest _ prop => some prop

section Member

variable {g : ShapeGraph} {pfx pp : String}

/-- Every property the loop makes for the member `name` is named `prop_prefix + to_snake(name)`. -/
theorem memberAction_property_name {member : String × Shape} {act : MemberAction}
    {prop : AwsProperty} (h : memberAction g pfx pp member = .ok act)
    (hp : act.property? = some prop) : prop.name = pp ++ toSnake member.1 := by
  obtain ⟨name, propShape⟩ := member
  cases memberAction_acts h <;> cases hp <;> rfl

/-- The loop over the members `rs` appends properties named after members of `rs`, in the
order of `rs`, each at most once. -/
theorem foldlM_memberStep_props {r : Shape → List String → Fueled (List AwsModel × List String)} :
    ∀ (rs : List (String × Shape)) {st st' : LoopState},
      rs.foldlM (memberStep g pfx pp r) st = .ok st' →
      ∃ l, st'.props = st.props ++ l ∧
        (l.map AwsProperty.name).Sublist (rs.map fun m => pp ++ toSnake m.1)
  | [], _, _, h => by cases Except.ok.inj h; exact ⟨[], (List.append_nil _).symm, .slnil⟩
  | m :: rs, st, st', h => by
    obtain ⟨t, ht, h⟩ := Except.bind_eq_ok.mp h
    obtain ⟨l, hl, hsub⟩ := foldlM_memberStep_props rs h
    rcases memberStep_cases ht with rfl | ⟨prop, ha, rfl⟩ | ⟨inner, prop, ms, V', ha, -, rfl⟩
    · exact ⟨l, hl, hsub.cons _⟩
    · refine ⟨prop :: l, by rw [hl]; simp [LoopState.add], ?_⟩
      rw [List.map_cons, memberAction_property_name ha rfl]
      exact hsub.cons₂ _
    · refine ⟨prop :: l, by rw [hl]; simp, ?_⟩
      rw [List.map_cons, memberAction_property_name ha rfl]
      exact hsub.cons₂ _

end Member

theorem ShapeGraph.resolveMembers_names {g : ShapeGraph} :
    ∀ {members : List (String × String)} {rs : List (String × Shape)},
      g.resolveMembers members = .ok rs → rs.map Prod.fst = members.map Prod.fst
  | [], _, h => by cases Except.ok.inj h; rfl
  | (name, _) :: _, _, h => by
    rw [ShapeGraph.resolveMembers, List.mapM_cons] at h
    obtain ⟨m, hm, h⟩ := Except.bind_eq_ok.mp h
    obtain ⟨rest, hrest, h⟩ := Except.bind_eq_ok.mp h
    cases Except.ok.inj h
    obtain ⟨s, -, rfl⟩ := Except.map_eq_ok.mp hm
    exact congrArg (name :: ·) (resolveMembers_names hrest)

/-- No two members of a structure have one skeleton. -/
def ShapeBody.membersApart : ShapeBody → Bool
  | .structure members => decide (members.map fun m => nameSkeleton m.1).Nodup
  | _ => true

/-- In every structure of the table, no two member names differ only in case and underscores. -/
def ShapeGraph.MembersApart (g : ShapeGraph) : Prop := ∀ e ∈ g.items, e.2.body.membersApart = true

instance (g : ShapeGraph) : Decidable g.MembersApart :=
  inferInstanceAs (Decidable (∀ e ∈ g.items, e.2.body.membersApart = true))

/-- The loop over the members of a structure whose members are apart names each property once. -/
theorem clazzLoop_props_nodup {g : ShapeGraph} (hapart : g.MembersApart) {s : Shape}
    (hs : g.Holds s) {members : List (String × String)} (hb : s.body = .structure members)
    {rs : List (String × Shape)} (hrs : g.resolveMembers members = .ok rs)
    {r : Shape → List String → ClazzArgs → Fueled (List AwsModel × List String)} {a : ClazzArgs}
    {W : List String} {st : LoopState} (h : clazzLoop g r a rs W = .ok st) :
    (st.props.map AwsProperty.name).Nodup := by
  obtain ⟨l, hl, hsub⟩ := foldlM_memberStep_props rs h
  have happ := hapart _ (findValue_mem hs)
  rw [show (s.name, ShapeDef.mk s.documentation s.body).2.body = s.body from rfl, hb] at happ
  have hnames : (rs.map Prod.fst).map nameSkeleton |>.Nodup := by
    rw [ShapeGraph.resolveMembers_names hrs, List.map_map]
    exact of_decide_eq_true happ
  rw [hl, List.nil_append]
  refine hsub.nodup ?_
  have := toSnake_injOn hnames (strOr a.propPrefix "")
  rwa [List.map_map] at this

/-! ## Every class of a run -/

/-- Every class of `ms` declares each of its properties once. -/
def PropsApart (ms : List AwsModel) : Prop := ∀ m ∈ ms, (m.props.map AwsProperty.name).Nodup

instance (ms : List AwsModel) : Decidable (PropsApart ms) :=
  inferInstanceAs (Decidable (∀ m ∈ ms, (m.props.map AwsProperty.name).Nodup))

theorem PropsApart.append {xs ys : List AwsModel} (hx : PropsApart xs) (hy : PropsApart ys) :
    PropsApart (xs ++ ys) :=
  fun m hm => (List.mem_append.mp hm).elim (hx m) (hy m)

/-- **Every class of a run of `clazz_model` declares each of its properties once**, on a
table where no two members of a structure differ only in case and underscores: the class of
the shape it is called on and the class of every structure it walks into. -/
theorem clazzModel_propsApart {g : ShapeGraph} (hapart : g.MembersApart) :
    ∀ (fuel : Nat) {s : Shape} {V : List String} {a : ClazzArgs} {ms : List AwsModel}
      {V' : List String}, g.Holds s → clazzModel g fuel s V a = .ok (ms, V') → PropsApart ms
  | 0, _, _, _, _, _, _, h => nomatch h
  | fuel + 1, s, V, a, ms, V', hs, h => by
    rw [clazzModel_succ] at h
    by_cases hk : a.key s ∈ V
    · rw [clazzCall_of_mem hk] at h
      cases Except.ok.inj h
      exact fun _ h => nomatch h
    · rcases clazzCall_cases hk h with ⟨-, rfl, -⟩ | ⟨members, rs, st, hb, hrs, hloop, rfl, -⟩
      · exact fun _ h => nomatch h
      refine PropsApart.append ?_ fun m hm => ?_
      · refine foldlM_invariant (fun st : LoopState => PropsApart st.result) (fun _ hm _ _ hst ht => ?_)
          (show PropsApart [] from fun _ h => nomatch h) hloop
        rcases memberStep_cases ht with rfl | ⟨prop, -, rfl⟩ | ⟨inner, prop, ms', V', ha, hcall, rfl⟩
        · exact hst
        · exact hst
        · have hinner := (memberAction_nest_reachable (ShapeGraph.resolveMembers_mem hrs hm).1 ha).1
          exact hst.append (clazzModel_propsApart hapart fuel hinner hcall)
      · rw [List.mem_singleton.mp hm]
        exact clazzLoop_props_nodup hapart hs hb hrs hloop

/-- The shape an endpoint reads is the one the table holds under its name. -/
theorem endpointShape_holds {sm : ServiceModel} {pascalcase : String → String}
    {ep : AwsResotoModel} {shape : Shape} (h : endpointShape sm pascalcase ep = .ok shape) :
    sm.shapes.Holds shape := by
  unfold endpointShape at h
  split at h
  · exact (ShapeGraph.resolve_eq_ok h).2
  · split at h
    · cases h
    · cases h
    · exact (ShapeGraph.resolve_eq_ok h).2

theorem endpointStep_propsApart {serviceModel : String → ServiceModel}
    {pascalcase : String → String} {service : String} {acc acc' : List AwsModel × List String}
    {ep : AwsResotoModel} (hapart : (serviceModel service).shapes.MembersApart)
    (hacc : PropsApart acc.1) (h : endpointStep serviceModel pascalcase service acc ep = .ok acc') :
    PropsApart acc'.1 := by
  obtain ⟨shape, hshape, h⟩ := Except.bind_eq_ok.mp h
  obtain ⟨⟨models, visited⟩, hcall, h⟩ := Except.bind_eq_ok.mp h
  cases Except.ok.inj h
  exact hacc.append
    (clazzModel_propsApart hapart _ (endpointShape_holds (mapError_some_eq_ok hshape)) hcall)

/-- **Every class `all_models` returns declares each of its properties once**, when in the
shape table of every service no two members of a structure differ only in case and
underscores. -/
theorem allModels_propsApart (models : PyDict String (List AwsResotoModel))
    (serviceModel : String → ServiceModel) (pascalcase : String → String)
    (hapart : ∀ e ∈ models.items, (serviceModel e.1).shapes.MembersApart) {ms : List AwsModel}
    (h : allModels models serviceModel pascalcase = .ok ms) : PropsApart ms := by
  obtain ⟨⟨result, visited⟩, hloop, h⟩ := Except.bind_eq_ok.mp h
  obtain rfl : result = ms := Except.ok.inj h
  exact foldlM_invariant (fun acc : List AwsModel × List String => PropsApart acc.1)
    (fun _ he _ _ hs h => foldlM_invariant (fun acc : List AwsModel × List String => PropsApart acc.1)
      (fun _ _ _ _ hs' h' => endpointStep_propsApart (hapart _ he) hs' h') hs h)
    (show PropsApart [] from fun _ h => nomatch h) hloop

theorem allModels_propsApart_instanceTable :
    (∀ e ∈ (ec2Endpoints "Instance" (some "EC2")).items,
      ((fun _ => ⟨instanceTable, ∅⟩ : String → ServiceModel) e.1).shapes.MembersApart) ∧
    ∃ ms, allModels (ec2Endpoints "Instance" (some "EC2")) (fun _ => ⟨instanceTable, ∅⟩) id = .ok ms ∧
      PropsApart ms :=
  have hapart : ∀ e ∈ (ec2Endpoints "Instance" (some "EC2")).items,
      ((fun _ => ⟨instanceTable, ∅⟩ : String → ServiceModel) e.1).shapes.MembersApart := by
    decide
  ⟨hapart, _, rfl,
    allModels_propsApart (ec2Endpoints "Instance" (some "EC2")) (fun _ => ⟨instanceTable, ∅⟩) id
      hapart rfl⟩

/-- A structure with the members `InstanceId` and `instanceId`. -/
def pairTable : ShapeGraph :=
  PyDict.ofList
    [("Pair", ⟨"", .structure [("InstanceId", "String"), ("instanceId", "String")]⟩),
     ("String", ⟨"", .string⟩)]

/-- Both members of `Pair` become the property `instance_id`. -/
example : ∃ ms visited,
    clazzModel pairTable 2 ⟨"Pair", "", .structure [("InstanceId", "String"), ("instanceId", "String")]⟩
      [] {} = .ok (ms, visited) ∧ ¬PropsApart ms :=
  ⟨_, _, rfl, by decide⟩

end AwsModelGen

end Resoto
