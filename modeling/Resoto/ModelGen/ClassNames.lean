import Resoto.ModelGen.Termination

/-!
# The class names of `all_models`

`clazz_model` names the class of a nested shape after the type name it visits for that shape,
and the `visited` set is shared by the whole run of `all_models`, so those names never repeat.
The class of an endpoint's own shape is named differently: after the endpoint's `name` when it
has one, and otherwise after the type name under `prefix or ""`, while the name it visits is
the type name under `prefix` as given, which reads `AwsNone…` for an endpoint without a
prefix. When every endpoint has a prefix and no name of its own, the two agree, and no class
name repeats. Without a prefix, a structure that refers to itself gets two classes of one name.

A generated property can also name a type that no class has: a list of lists, or a map whose
values are lists, maps or scalars the generator has no Python type for, walks into a shape
that is not a structure, and `clazz_model` visits its type name without making a class.
-/

namespace Resoto

namespace AwsModelGen

/-- An endpoint whose class `all_models` names after the type name it visits for it: it has a
`prefix` and no class `name` of its own. -/
def AwsResotoModel.NamedByType (ep : AwsResotoModel) : Prop :=
  ep.resourcePrefix.isSome ∧ truthyStr ep.name = false

instance (ep : AwsResotoModel) : Decidable ep.NamedByType :=
  inferInstanceAs (Decidable (_ ∧ _))

theorem endpointArgs_model_name {service : String} {ep : AwsResotoModel} (hep : ep.NamedByType)
    (s : Shape) (props : List AwsProperty) :
    ((endpointArgs service ep).model s props).name = (endpointArgs service ep).key s := by
  obtain ⟨p, hp⟩ := Option.isSome_iff_exists.mp hep.1
  show strOr ep.name (typeName (strOr ep.resourcePrefix "") s) =
    typeName (renderPrefix ep.resourcePrefix) s
  rw [hp, strOr_some, renderPrefix_some]
  simp [strOr, hep.2]

/-- The invariant of the loop of `all_models`: the visited names are distinct, and the classes
so far are named by distinct visited names. -/
def NamesVisited (acc : List AwsModel × List String) : Prop :=
  List.Subperm (acc.1.map AwsModel.name) acc.2 ∧ acc.2.Nodup

/-- An endpoint whose class is named after its type name keeps the invariant. -/
theorem endpointStep_namesVisited {serviceModel : String → ServiceModel}
    {pascalcase : String → String} {service : String} {acc acc' : List AwsModel × List String}
    {ep : AwsResotoModel} (hep : ep.NamedByType) (hacc : NamesVisited acc)
    (h : endpointStep serviceModel pascalcase service acc ep = .ok acc') : NamesVisited acc' := by
  obtain ⟨shape, -, h⟩ := Except.bind_eq_ok.mp h
  obtain ⟨⟨models, visited⟩, hcall, h⟩ := Except.bind_eq_ok.mp h
  cases Except.ok.inj h
  rcases clazzModel_callResult _ hcall with ⟨-, hms, hv⟩ | ⟨hk, added, nested, hv, hw, hms⟩
  · dsimp only at hms hv
    subst hms hv
    simpa [NamesVisited] using hacc
  · dsimp only at hv hms
    rw [NamesVisited, hv, List.map_append]
    exact ⟨subperm_visited_after hacc.1 (names_subperm_of_call hw.names
        (hms.imp id fun ⟨props, h⟩ => ⟨_, h, endpointArgs_model_name hep shape props⟩)),
      nodup_visited_after hacc.2 hw.nodup hk hw.fresh⟩

/-- **The class names of `all_models` are pairwise distinct** when every endpoint has a
`prefix` and no class `name` of its own. -/
theorem allModels_names_nodup (models : PyDict String (List AwsResotoModel))
    (serviceModel : String → ServiceModel) (pascalcase : String → String)
    (hnamed : ∀ e ∈ models.items, ∀ ep ∈ e.2, ep.NamedByType) {ms : List AwsModel}
    (h : allModels models serviceModel pascalcase = .ok ms) : (ms.map AwsModel.name).Nodup := by
  obtain ⟨⟨result, visited⟩, hloop, h⟩ := Except.bind_eq_ok.mp h
  obtain rfl : result = ms := Except.ok.inj h
  have ⟨hsub, hnodup⟩ := foldlM_invariant NamesVisited
    (fun ⟨_, endpoints⟩ he _ _ hs h =>
      foldlM_invariant NamesVisited
        (fun ep hep _ _ hs' h' => endpointStep_namesVisited (hnamed _ he ep hep) hs' h') hs h)
    (show NamesVisited ([], []) from ⟨List.Subperm.refl [], List.nodup_nil⟩) hloop
  obtain ⟨l, hperm, hsl⟩ := hsub
  exact hperm.nodup_iff.mp (hnodup.sublist hsl)

/-- The `ec2` endpoint `describe-instances`, reading the shape `resultShape`, with `prefix`
`pfx`. -/
def describeInstances (resultShape : String) (pfx : Option String) : AwsResotoModel :=
  { apiAction := "describe-instances", resultProperty := "Reservations",
    resultShape := some resultShape, resourcePrefix := pfx }

/-- An endpoint table of the one `ec2` endpoint `describe-instances`. -/
def ec2Endpoints (resultShape : String) (pfx : Option String) :
    PyDict String (List AwsResotoModel) :=
  PyDict.ofList [("ec2", [describeInstances resultShape pfx])]

theorem allModels_names_nodup_instanceTable :
    (∀ e ∈ (ec2Endpoints "Instance" (some "EC2")).items, ∀ ep ∈ e.2, ep.NamedByType) ∧
    ∃ ms, allModels (ec2Endpoints "Instance" (some "EC2")) (fun _ => ⟨instanceTable, ∅⟩) id = .ok ms ∧
      (ms.map AwsModel.name).Nodup :=
  have hnamed : ∀ e ∈ (ec2Endpoints "Instance" (some "EC2")).items, ∀ ep ∈ e.2, ep.NamedByType := by
    decide
  ⟨hnamed, _, rfl,
    allModels_names_nodup (ec2Endpoints "Instance" (some "EC2")) (fun _ => ⟨instanceTable, ∅⟩) id
      hnamed rfl⟩

/-- A table whose structure lists rows, each row a list of strings. -/
def matrixTable : ShapeGraph :=
  PyDict.ofList
    [("Matrix", ⟨"", .structure [("Rows", "RowList")]⟩),
     ("RowList", ⟨"", .list "Row"⟩),
     ("Row", ⟨"", .list "String"⟩),
     ("String", ⟨"", .string⟩)]

/-- Without a prefix, the self-referencing `Instance` gets two classes `AwsInstance`: the
nested one, visited as `AwsInstance`, and the endpoint's own, visited as `AwsNoneInstance`.
With the prefix `EC2`, the list of lists `Matrix.Rows` gets the type `AwsEC2Row`, and the only
class is `AwsEC2Matrix`. -/
theorem allModels_names_counterexample :
    (allModels (ec2Endpoints "Instance" none) (fun _ => ⟨instanceTable, ∅⟩) id).map
        (List.map AwsModel.name) = .ok ["AwsInstance", "AwsInstance"] ∧
    (allModels (ec2Endpoints "Matrix" (some "EC2")) (fun _ => ⟨matrixTable, ∅⟩) id).map
        (fun ms => (ms.map AwsModel.name, ms.flatMap fun m => m.props.map AwsProperty.type)) =
      .ok (["AwsEC2Matrix"], ["AwsEC2Row"]) :=
  ⟨rfl, rfl⟩

end AwsModelGen

end Resoto
