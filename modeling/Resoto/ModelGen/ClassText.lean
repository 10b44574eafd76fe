import Resoto.ModelGen.PropertyNames
import Resoto.Query.Render
import Mathlib.Data.String.Basic

/-!
# The text of the generated classes

`__main__` prints `to_class()` of every class `all_models` returns. `to_class` writes the
class header, the `kind` (`to_snake` of the class name after its first three letters), the
`api_spec`, the `mapping` dict with one `AwsProperty.mapping` entry per property after the six
base entries of an aggregate root, and one attribute line per property from `type_string` and
`assignment`. `BeautifulSoup(description, "lxml").get_text().strip()` is the parameter
`getText`.

Every bracket a class text opens it closes, in order, when the texts it copies do
(`AwsModel.balanced_toClass`); `to_snake` moves no bracket (`balanced_toSnake`). The texts a
run of `all_models` copies are names of the shape table and the endpoint table and the
documentation of the shapes, so the printed module balances whenever those do
(`allModels_printed_balanced`).
-/

namespace Resoto

namespace AwsModelGen

/-! ## The printers -/

/-- `AwsProperty.assignment()`. -/
def AwsProperty.assignment (getText : String → String) (p : AwsProperty) : String :=
  let default := strOr p.fieldDefault (if p.isArray then "factory=list" else "default=None")
  let description := getText p.description
  "field(" ++ default ++ ", metadata=\x7b\"description\": \"" ++ description ++
    "\"\x7d)  # fmt: skip"

/-- `AwsProperty.type_string()`. -/
def AwsProperty.typeString (p : AwsProperty) : String :=
  if p.isArray then "Optional[List[" ++ p.type ++ "]]" else "Optional[" ++ p.type ++ "]"

/-- `from_name` as the list `mapping` reads: a name alone, or the path. -/
def AwsProperty.fromPath (p : AwsProperty) : List String :=
  match p.fromName with
  | .inl n => [n]
  | .inr ns => ns

/-- `AwsProperty.mapping()`. -/
def AwsProperty.mapping (p : AwsProperty) : String :=
  if truthyStr p.extractor then "\"" ++ p.name ++ "\": " ++ p.extractor.getD ""
  else
    let fromPPath := ",".intercalate (p.fromPath.map fun q => "\"" ++ q ++ "\"")
    let base := "\"" ++ p.name ++ "\": S(" ++ fromPPath
    if p.isArray && p.isComplex then base ++ ", default=[]) >> ForallBend(" ++ p.type ++ ".mapping)"
    else if p.isArray then base ++ ", default=[])"
    else if p.isComplex then base ++ ") >> Bend(" ++ p.type ++ ".mapping)"
    else base ++ ")"

/-- `base_mapping` of `to_class`: the benders of the fields every aggregate root has. -/
def baseMapping : List (String × String) :=
  [("id", "S(\"id\")"), ("tags", "S(\"Tags\", default=[]) >> ToDict()"),
   ("name", "S(\"Tags\", default=[]) >> TagsValue(\"Name\")"), ("ctime", "K(None)"),
   ("mtime", "K(None)"), ("atime", "K(None)")]

/-- The `api_spec` line of `to_class`, empty without `api_info`. -/
def apiLine : Option (String × String × String) → String
  | some (srv, act, res) =>
    "    api_spec: ClassVar[AwsApiSpec] = AwsApiSpec(\"" ++ srv ++ "\", \"" ++ act ++ "\", \"" ++
      res ++ "\")\n"
  | none => ""

/-- `AwsModel.to_class()`. -/
def AwsModel.toClass (getText : String → String) (m : AwsModel) : String :=
  let bc := if truthyStr m.baseClass then ", " ++ m.baseClass.getD "" else ""
  let base := if m.aggregateRoot then "(AwsResource" ++ bc ++ "):" else ":"
  let kind := "    kind: ClassVar[str] = \"aws_" ++ toSnake (m.name.drop 3) ++ "\""
  let mapping := "    mapping: ClassVar[Dict[str, Bender]] = \x7b\n" ++
    (if m.aggregateRoot then
      ",\n".intercalate (baseMapping.map fun (k, v) => "        \"" ++ k ++ "\": " ++ v) ++ ",\n"
    else "") ++
    ",\n".intercalate (m.props.map fun p => "        " ++ p.mapping) ++ "\n    \x7d"
  let props := "\n".intercalate
    (m.props.map fun p => "    " ++ p.name ++ ": " ++ p.typeString ++ " = " ++ p.assignment getText)
  "@define(eq=False, slots=False)\nclass " ++ m.name ++ base ++ "\n" ++ kind ++ "\n" ++
    apiLine m.apiInfo ++ mapping ++ "\n" ++ props ++ "\n"

/-- What `__main__` prints of the classes: `print(model.to_class())` for each. -/
def printClasses (getText : String → String) (ms : List AwsModel) : String :=
  String.join (ms.map fun m => m.toClass getText ++ "\n")

set_option maxRecDepth 8000 in
example : (AwsModel.toClass id ⟨"AwsEc2VolumeState",
    [{ name := "code", fromName := .inl "Code", type := "int", description := "The code." },
     { name := "attachments", fromName := .inl "Attachments", type := "AwsEc2Attachment",
       description := "", isArray := true, isComplex := true }], false, none, none⟩) =
    "@define(eq=False, slots=False)\nclass AwsEc2VolumeState:\n" ++
    "    kind: ClassVar[str] = \"aws_ec2_volume_state\"\n" ++
    "    mapping: ClassVar[Dict[str, Bender]] = \x7b\n" ++
    "        \"code\": S(\"Code\"),\n" ++
    "        \"attachments\": S(\"Attachments\", default=[]) >> ForallBend(AwsEc2Attachment.mapping)\n" ++
    "    \x7d\n" ++
    "    code: Optional[int] = field(default=None, metadata=\x7b\"description\": \"The code.\"\x7d)" ++
    "  # fmt: skip\n" ++
    "    attachments: Optional[List[AwsEc2Attachment]] = field(factory=list, " ++
    "metadata=\x7b\"description\": \"\"\x7d)  # fmt: skip\n" := by
  decide

/-! ## `to_snake` moves no bracket -/

theorem bracketStack_cons_of_plain {c : Char} (hc : isPlain c = true) (l st : List Char) :
    bracketStack st (c :: l) = bracketStack st l := by
  simp only [isPlain, Bool.and_eq_true, beq_iff_eq, Bool.not_eq_true'] at hc
  simp only [bracketStack, hc.1, hc.2, Bool.false_eq_true, if_false]

theorem bracketStack_cons_congr (c : Char) {l l' : List Char}
    (h : ∀ st, bracketStack st l = bracketStack st l') (st : List Char) :
    bracketStack st (c :: l) = bracketStack st (c :: l') := by
  show bracketStack st ([c] ++ l) = bracketStack st ([c] ++ l')
  simp only [bracketStack_append, h]

theorem bracketStack_skeleton (l : List Char) :
    ∀ st, bracketStack st (skeleton l) = bracketStack st l := by
  induction l with
  | nil => intro; rfl
  | cons c l ih =>
    intro st
    by_cases hc : c = '_'
    · subst hc
      rw [skeleton_underscore_cons, ih, bracketStack_cons_of_plain (by decide)]
    · rw [skeleton, List.filter_cons_of_pos (by simpa using hc)]
      exact bracketStack_cons_congr c ih st

/-- No ASCII letter is a bracket. -/
theorem isPlain_of_letter {c : Char}
    (h : (65 ≤ c.toNat ∧ c.toNat ≤ 90) ∨ (97 ≤ c.toNat ∧ c.toNat ≤ 122)) : isPlain c = true := by
  have hletters : ∀ k < 26,
      isPlain (Char.ofNat (65 + k)) = true ∧ isPlain (Char.ofNat (97 + k)) = true := by
    decide
  rw [← Char.ofNat_toNat c]
  rcases h with h | h
  · have := (hletters (c.toNat - 65) (by omega)).1
    rwa [Nat.add_sub_cancel' h.1] at this
  · have := (hletters (c.toNat - 97) (by omega)).2
    rwa [Nat.add_sub_cancel' h.1] at this

theorem toLower_of_not_upper {c : Char} (h : ¬(65 ≤ c.toNat ∧ c.toNat ≤ 90)) : c.toLower = c := by
  unfold Char.toLower
  exact if_neg h

theorem bracketStack_map_toLower (l : List Char) :
    ∀ st, bracketStack st (l.map Char.toLower) = bracketStack st l := by
  induction l with
  | nil => intro; rfl
  | cons c l ih =>
    intro st
    rw [List.map_cons]
    by_cases hu : 65 ≤ c.toNat ∧ c.toNat ≤ 90
    · have hl := toNat_toLower c
      rw [if_pos hu] at hl
      rw [bracketStack_cons_of_plain (isPlain_of_letter (.inr (by omega))),
        bracketStack_cons_of_plain (isPlain_of_letter (.inl hu)), ih]
    · rw [toLower_of_not_upper hu]
      exact bracketStack_cons_congr c ih st

/-- `to_snake` moves no bracket: it puts in and takes out only `_`, and lower-cases only
letters. -/
theorem balanced_toSnake {name : String} (h : Balanced name) : Balanced (toSnake name) := by
  unfold Balanced Reads at *
  rw [← bracketStack_skeleton, toSnake_skeleton, nameSkeleton, bracketStack_skeleton]
  show bracketStack [] (name.data.map Char.toLower) = some []
  rw [bracketStack_map_toLower]
  exact h

/-! ## The class text balances when the texts it copies do -/

/-- The texts `to_class` copies from a property: its name and type, its description after
`getText`, the member names it reads, its default and its extractor. -/
def AwsProperty.atoms (getText : String → String) (p : AwsProperty) : List String :=
  [p.name, p.type, getText p.description] ++ p.fromPath ++ p.fieldDefault.toList ++
    p.extractor.toList

/-- The texts `to_class` copies from a class: its name, its name after the first three
letters, its base class, its `api_info` and the texts of its properties. -/
def AwsModel.atoms (getText : String → String) (m : AwsModel) : List String :=
  [m.name, m.name.drop 3] ++ m.baseClass.toList ++
    (m.apiInfo.map fun (srv, act, res) => [srv, act, res]).getD [] ++
    m.props.flatMap (AwsProperty.atoms getText)

theorem balanced_strOr {x : Option String} {y : String} (hx : AllBalanced x.toList)
    (hy : Balanced y) : Balanced (strOr x y) := by
  unfold strOr
  cases x with
  | none => exact .ite hy hy
  | some a => exact .ite (hx a (List.mem_singleton_self a)) hy

section Property

variable {getText : String → String} {p : AwsProperty}

theorem AwsProperty.balanced_of_atoms (h : AllBalanced (p.atoms getText)) :
    Balanced p.name ∧ Balanced p.type ∧ Balanced (getText p.description) ∧
      AllBalanced p.fromPath ∧ AllBalanced p.fieldDefault.toList ∧
        AllBalanced p.extractor.toList := by
  refine ⟨h _ ?_, h _ ?_, h _ ?_, fun s hs => h s ?_, fun s hs => h s ?_, fun s hs => h s ?_⟩ <;>
    simp [AwsProperty.atoms, *]

theorem AwsProperty.atoms_balanced {p : AwsProperty} (hname : Balanced p.name)
    (htype : Balanced p.type) (hdoc : Balanced (getText p.description))
    (hpath : AllBalanced p.fromPath) (hdefault : AllBalanced p.fieldDefault.toList)
    (hextractor : AllBalanced p.extractor.toList) : AllBalanced (p.atoms getText) :=
  List.forall_mem_append.mpr ⟨List.forall_mem_append.mpr ⟨List.forall_mem_append.mpr
    ⟨List.forall_mem_cons.mpr ⟨hname, List.forall_mem_cons.mpr ⟨htype,
      List.forall_mem_singleton.mpr hdoc⟩⟩, hpath⟩, hdefault⟩, hextractor⟩

theorem AwsProperty.balanced_assignment (h : AllBalanced (p.atoms getText)) :
    Balanced (p.assignment getText) :=
  have h := AwsProperty.balanced_of_atoms h
  Reads.lit (Reads.bal (Reads.lit (Reads.bal (show Reads "field(" [')'] from rfl)
    (balanced_strOr h.2.2.2.2.1 (.ite rfl rfl))) rfl) h.2.2.1) rfl

theorem AwsProperty.balanced_typeString (h : AllBalanced (p.atoms getText)) :
    Balanced p.typeString :=
  have htype := (AwsProperty.balanced_of_atoms h).2.1
  .ite (Reads.lit (Reads.bal (show Reads "Optional[List[" [']', ']'] from rfl) htype) rfl)
    (Reads.close rfl htype rfl)

theorem AwsProperty.balanced_mapping (h : AllBalanced (p.atoms getText)) : Balanced p.mapping := by
  obtain ⟨hname, htype, -, hpath, -, hextractor⟩ := AwsProperty.balanced_of_atoms h
  unfold AwsProperty.mapping
  refine .ite (Balanced.append (Reads.lit (Balanced.append rfl hname) rfl)
    (balanced_getD hextractor)) ?_
  have hbase : Reads ("\"" ++ p.name ++ "\": S(" ++
      ",".intercalate (p.fromPath.map fun q => "\"" ++ q ++ "\"")) [')'] :=
    Reads.bal (Reads.lit (Balanced.append rfl hname) rfl) (Balanced.intercalate rfl fun s hs => by
      obtain ⟨q, hq, rfl⟩ := List.mem_map.mp hs
      exact Balanced.append (Balanced.append rfl (hpath q hq)) rfl)
  exact .ite (Reads.lit (Reads.bal (Reads.lit hbase rfl) htype) rfl)
    (.ite (Reads.lit hbase rfl) (.ite (Reads.lit (Reads.bal (Reads.lit hbase rfl) htype) rfl)
      (Reads.lit hbase rfl)))

end Property

theorem balanced_apiLine {api : Option (String × String × String)}
    (h : AllBalanced ((api.map fun (srv, act, res) => [srv, act, res]).getD [])) :
    Balanced (apiLine api) := by
  rcases api with _ | ⟨srv, act, res⟩
  · rfl
  · have ⟨hsrv, h⟩ := AllBalanced.cons h
    have ⟨hact, h⟩ := AllBalanced.cons h
    exact Reads.lit (Reads.bal (Reads.lit (Reads.bal (Reads.lit (Reads.bal
      (show Reads "    api_spec: ClassVar[AwsApiSpec] = AwsApiSpec(\"" [')'] from rfl) hsrv) rfl)
      hact) rfl) h.cons.1) rfl

/-- **The text of a class closes every bracket it opens**, in order, when the texts it
copies do. -/
theorem AwsModel.balanced_toClass (getText : String → String) (m : AwsModel)
    (h : AllBalanced (m.atoms getText)) : Balanced (m.toClass getText) := by
  have hname : Balanced m.name := h _ (by simp [AwsModel.atoms])
  have hdrop : Balanced (m.name.drop 3) := h _ (by simp [AwsModel.atoms])
  have hbc : AllBalanced m.baseClass.toList := fun s hs => h s (by simp [AwsModel.atoms, hs])
  have hapi : Balanced (apiLine m.apiInfo) :=
    balanced_apiLine fun s hs => h s (by simp only [AwsModel.atoms, List.mem_append]; exact .inl (.inr hs))
  have hp : ∀ p ∈ m.props, AllBalanced (p.atoms getText) :=
    fun p hp s hs => h s (by simp only [AwsModel.atoms, List.mem_append, List.mem_flatMap]; exact .inr ⟨p, hp, hs⟩)
  have hbase : Balanced (if m.aggregateRoot then
      "(AwsResource" ++ (if truthyStr m.baseClass then ", " ++ m.baseClass.getD "" else "") ++ "):"
      else ":") :=
    .ite (Reads.close rfl (.ite (Balanced.append rfl (balanced_getD hbc)) rfl) rfl) rfl
  have hkind : Balanced ("    kind: ClassVar[str] = \"aws_" ++ toSnake (m.name.drop 3) ++ "\"") :=
    Balanced.append (Balanced.append rfl (balanced_toSnake hdrop)) rfl
  have hentries : Balanced (",\n".intercalate (m.props.map fun p => "        " ++ p.mapping)) :=
    Balanced.intercalate rfl fun s hs => by
      obtain ⟨p, hmem, rfl⟩ := List.mem_map.mp hs
      exact Balanced.append rfl (AwsProperty.balanced_mapping (hp p hmem))
  have hroot : Balanced (if m.aggregateRoot then
      ",\n".intercalate (baseMapping.map fun (k, v) => "        \"" ++ k ++ "\": " ++ v) ++ ",\n"
      else "") :=
    .ite (by decide) rfl
  have hfields : Balanced ("\n".intercalate (m.props.map fun p =>
      "    " ++ p.name ++ ": " ++ p.typeString ++ " = " ++ p.assignment getText)) :=
    Balanced.intercalate rfl fun s hs => by
      obtain ⟨p, hmem, rfl⟩ := List.mem_map.mp hs
      have hpa := hp p hmem
      exact Balanced.append (Balanced.append (Balanced.append (Balanced.append
        (Balanced.append rfl (AwsProperty.balanced_of_atoms hpa).1) rfl)
        (AwsProperty.balanced_typeString hpa)) rfl) (AwsProperty.balanced_assignment hpa)
  unfold AwsModel.toClass
  dsimp only
  exact Balanced.append (Balanced.append (Balanced.append (Balanced.append (Balanced.append
    (Balanced.append (Balanced.append (Balanced.append (Balanced.append (Balanced.append rfl hname)
    hbase) rfl) hkind) rfl) hapi) (Reads.lit (Reads.bal (Reads.bal rfl hroot) hentries) rfl)) rfl)
    hfields) rfl

/-- What `__main__` prints closes every bracket it opens when the texts of every class do. -/
theorem balanced_printClasses (getText : String → String) {ms : List AwsModel}
    (h : ∀ m ∈ ms, AllBalanced (m.atoms getText)) : Balanced (printClasses getText ms) := by
  unfold printClasses
  rw [String.join]
  refine balanced_join _ rfl fun s hs => ?_
  obtain ⟨m, hm, rfl⟩ := List.mem_map.mp hs
  exact (AwsModel.balanced_toClass getText m (h m hm)).append rfl

/-! ## What a run of `all_models` copies -/

/-- The member names of a structure. -/
def ShapeBody.memberNames : ShapeBody → List String
  | .structure members => members.map Prod.fst
  | _ => []

/-- The names of the table, the member names of its structures and the documentation of its
shapes after `getText` balance. -/
def ShapeGraph.TextsBalanced (getText : String → String) (g : ShapeGraph) : Prop :=
  ∀ e ∈ g.items, Balanced e.1 ∧ Balanced (getText e.2.documentation) ∧ AllBalanced e.2.body.memberNames

instance (getText : String → String) (g : ShapeGraph) : Decidable (g.TextsBalanced getText) :=
  inferInstanceAs (Decidable (∀ e ∈ g.items,
    Balanced e.1 ∧ Balanced (getText e.2.documentation) ∧ AllBalanced e.2.body.memberNames))

/-- The texts of the arguments of a call that its classes copy balance: the prefixes, the
base class, the class name and that name after its first three letters, and `api_info`. -/
structure ClazzArgs.TextsBalanced (a : ClazzArgs) : Prop where
  resourcePrefix : AllBalanced a.resourcePrefix.toList
  propPrefix : AllBalanced a.propPrefix.toList
  baseClass : AllBalanced a.baseClass.toList
  clazzName : ∀ n ∈ a.clazzName.toList, Balanced n ∧ Balanced (n.drop 3)
  apiInfo : AllBalanced ((a.apiInfo.map fun (srv, act, res) => [srv, act, res]).getD [])

instance (a : ClazzArgs) : Decidable a.TextsBalanced :=
  decidable_of_iff (AllBalanced a.resourcePrefix.toList ∧ AllBalanced a.propPrefix.toList ∧
      AllBalanced a.baseClass.toList ∧ (∀ n ∈ a.clazzName.toList, Balanced n ∧ Balanced (n.drop 3)) ∧
      AllBalanced ((a.apiInfo.map fun (srv, act, res) => [srv, act, res]).getD []))
    ⟨fun ⟨h₁, h₂, h₃, h₄, h₅⟩ => ⟨h₁, h₂, h₃, h₄, h₅⟩, fun ⟨h₁, h₂, h₃, h₄, h₅⟩ => ⟨h₁, h₂, h₃, h₄, h₅⟩⟩

theorem ClazzArgs.TextsBalanced.pfx {a : ClazzArgs} (ha : a.TextsBalanced) : Balanced a.pfx :=
  balanced_strOr ha.resourcePrefix rfl

theorem ClazzArgs.TextsBalanced.pp {a : ClazzArgs} (ha : a.TextsBalanced) :
    Balanced (strOr a.propPrefix "") :=
  balanced_strOr ha.propPrefix rfl

theorem nestedArgs_textsBalanced {pfx : String} (h : Balanced pfx) : (nestedArgs pfx).TextsBalanced :=
  ⟨List.forall_mem_singleton.mpr h, List.forall_mem_nil _, List.forall_mem_nil _,
    (fun _ h => nomatch h), List.forall_mem_nil _⟩

/-- The simple types, and what is left of them after three letters, balance. -/
theorem balanced_simpleShape {s : Shape} {x : String} (h : simpleShape s = some x) :
    Balanced x ∧ Balanced (x.drop 3) := by
  have hall : ∀ v ∈ "str" :: simpleTypeMap.map Prod.snd, Balanced v ∧ Balanced (v.drop 3) := by
    decide
  exact hall x (simpleShape_mem h)

theorem drop_aws (x : String) : ("Aws" ++ x).drop 3 = x := by
  rw [String.drop_eq]
  show String.mk (("Aws".data ++ x.data).drop 3) = x
  rw [List.drop_left' (show "Aws".data.length = 3 from rfl)]

/-- A type name under a balanced prefix balances, and so does what is left of it after
three letters. -/
theorem balanced_typeName {pfx : String} {s : Shape} (hpfx : Balanced pfx) (hs : Balanced s.name) :
    Balanced (typeName pfx s) ∧ Balanced ((typeName pfx s).drop 3) := by
  cases h : simpleShape s with
  | some x =>
    have hx : typeName pfx s = x := by simp [typeName, h]
    rw [hx]
    exact balanced_simpleShape h
  | none =>
    rw [typeName_of_not_simple h, String.append_assoc, drop_aws]
    exact ⟨Balanced.append rfl (hpfx.append hs), hpfx.append hs⟩

section Table

variable {getText : String → String} {g : ShapeGraph} (htab : g.TextsBalanced getText)
include htab

theorem ShapeGraph.TextsBalanced.shapeName {s : Shape} (hs : g.Holds s) : Balanced s.name :=
  (htab _ (findValue_mem hs)).1

theorem ShapeGraph.TextsBalanced.doc {s : Shape} (hs : g.Holds s) :
    Balanced (getText s.documentation) :=
  (htab _ (findValue_mem hs)).2.1

theorem ShapeGraph.TextsBalanced.member {s : Shape} (hs : g.Holds s)
    {members : List (String × String)} (hb : s.body = .structure members) :
    ∀ n ∈ members.map Prod.fst, Balanced n := by
  have := (htab _ (findValue_mem hs)).2.2
  rwa [show (s.name, ShapeDef.mk s.documentation s.body).2.body = s.body from rfl, hb] at this

/-- The one member `complex_simple_shape` reads is a member of a structure of the table, and
its type is simple. -/
theorem ShapeGraph.TextsBalanced.complexSimple {s : Shape} (hs : g.Holds s)
    {n t : String} (h : complexSimpleShape g s = .ok (some (n, t))) : Balanced n ∧ Balanced t := by
  unfold complexSimpleShape at h
  split at h
  · rename_i members hb
    obtain ⟨rs, hrs, h⟩ := Except.bind_eq_ok.mp h
    split at h
    · obtain ⟨t', ht', hnt⟩ := Option.map_eq_some'.mp (Except.pure_eq_ok.mp h)
      cases hnt
      have hname : n ∈ members.map Prod.fst := by
        rw [← ShapeGraph.resolveMembers_names hrs]
        exact List.mem_singleton_self _
      exact ⟨htab.member hs hb n hname, (balanced_simpleShape ht').1⟩
    · cases h
  · cases h

/-- Every property the loop makes for a member copies only balanced texts. -/
theorem memberAction_atoms {pfx pp : String} (hpfx : Balanced pfx) (hpp : Balanced pp)
    {member : String × Shape} (hname : Balanced member.1) (hm : g.Holds member.2)
    {act : MemberAction} {prop : AwsProperty} (h : memberAction g pfx pp member = .ok act)
    (hp : act.property? = some prop) : AllBalanced (prop.atoms getText) := by
  obtain ⟨name, propShape⟩ := member
  have hpname : Balanced (pp ++ toSnake name) := hpp.append (balanced_toSnake hname)
  have hdoc := htab.doc hm
  have hnil : AllBalanced ([] : List String) := List.forall_mem_nil _
  have hone : AllBalanced [name] := List.forall_mem_singleton.mpr hname
  have hpath {pn : String} (hpn : Balanced pn) : AllBalanced [name, pn] :=
    List.forall_mem_cons.mpr ⟨hname, List.forall_mem_singleton.mpr hpn⟩
  cases memberAction_acts h with
  | skip => cases hp
  | simple _ hsimple =>
    cases hp
    exact AwsProperty.atoms_balanced hpname (balanced_simpleShape hsimple).1 hdoc hone hnil hnil
  | listSimple _ _ _ hsimple =>
    cases hp
    exact AwsProperty.atoms_balanced hpname (balanced_simpleShape hsimple).1 hdoc hone hnil hnil
  | listPath _ _ hi hc =>
    cases hp
    obtain ⟨hpn, hpt⟩ := htab.complexSimple (ShapeGraph.resolve_eq_ok hi).2 hc
    exact AwsProperty.atoms_balanced hpname hpt hdoc (hpath hpn) hnil
      (List.forall_mem_singleton.mpr (Reads.lit (Reads.bal (Reads.lit (Reads.bal
        (show Reads "S(\"" [')'] from rfl) hname) rfl) hpn) rfl))
  | listNest _ _ hi _ _ =>
    cases hp
    exact AwsProperty.atoms_balanced hpname
      (balanced_typeName hpfx (htab.shapeName (ShapeGraph.resolve_eq_ok hi).2)).1 hdoc hone hnil hnil
  | map _ _ _ hkey hv =>
    cases hp
    have hvalue := balanced_typeName hpfx (htab.shapeName (ShapeGraph.resolve_eq_ok hv).2)
    exact AwsProperty.atoms_balanced hpname (Reads.lit (Reads.bal (Reads.lit (Reads.bal
      (show Reads "Dict[" [']'] from rfl) (balanced_simpleShape hkey).1) rfl) hvalue.1) rfl)
      hdoc hone hnil hnil
  | structPath _ _ hc =>
    cases hp
    obtain ⟨hpn, hpt⟩ := htab.complexSimple hm hc
    exact AwsProperty.atoms_balanced hpname hpt hdoc (hpath hpn) hnil hnil
  | structNest _ _ _ =>
    cases hp
    exact AwsProperty.atoms_balanced hpname (balanced_typeName hpfx (htab.shapeName hm)).1
      hdoc hone hnil hnil

end Table

/-- Every class of `ms` copies only balanced texts. -/
def ClassesBalanced (getText : String → String) (ms : List AwsModel) : Prop :=
  ∀ m ∈ ms, AllBalanced (m.atoms getText)

theorem ClassesBalanced.append {getText : String → String} {xs ys : List AwsModel}
    (hx : ClassesBalanced getText xs) (hy : ClassesBalanced getText ys) :
    ClassesBalanced getText (xs ++ ys) :=
  fun m hm => (List.mem_append.mp hm).elim (hx m) (hy m)

/-- The class a call makes for a shape of a balanced name copies only balanced texts, when its
arguments and its properties do. -/
theorem ClazzArgs.TextsBalanced.model {getText : String → String} {a : ClazzArgs}
    (ha : a.TextsBalanced) {s : Shape} (hs : Balanced s.name) {props : List AwsProperty}
    (hprops : ∀ p ∈ props, AllBalanced (p.atoms getText)) :
    AllBalanced ((a.model s props).atoms getText) := by
  have htn := balanced_typeName ha.pfx hs
  have hname : Balanced (strOr a.clazzName (typeName a.pfx s)) ∧
      Balanced ((strOr a.clazzName (typeName a.pfx s)).drop 3) := by
    cases hc : a.clazzName with
    | none => exact htn
    | some n =>
      have hn := ha.clazzName n (by rw [hc]; exact List.mem_singleton_self n)
      unfold strOr
      split
      · exact hn
      · exact htn
  exact List.forall_mem_append.mpr ⟨List.forall_mem_append.mpr ⟨List.forall_mem_append.mpr
    ⟨List.forall_mem_cons.mpr ⟨hname.1, List.forall_mem_singleton.mpr hname.2⟩, ha.baseClass⟩,
    ha.apiInfo⟩, fun x hx => by
      obtain ⟨p, hp, hx⟩ := List.mem_flatMap.mp hx
      exact hprops p hp x hx⟩

section Run

variable {getText : String → String} {g : ShapeGraph} (htab : g.TextsBalanced getText)
include htab

/-- One pass of the loop over the members of `s` keeps its classes and its properties
balanced, when the nested calls return balanced classes. -/
theorem memberStep_balanced {s : Shape} (hs : g.Holds s) {members : List (String × String)}
    (hb : s.body = .structure members) {rs : List (String × Shape)}
    (hrs : g.resolveMembers members = .ok rs) {pfx pp : String} (hpfx : Balanced pfx)
    (hpp : Balanced pp) {r : Shape → List String → Fueled (List AwsModel × List String)}
    (hr : ∀ {inner V ms V'}, g.Holds inner → r inner V = .ok (ms, V') → ClassesBalanced getText ms)
    {member : String × Shape} (hm : member ∈ rs) {st st' : LoopState}
    (hst : ClassesBalanced getText st.result ∧ ∀ p ∈ st.props, AllBalanced (p.atoms getText))
    (h : memberStep g pfx pp r st member = .ok st') :
    ClassesBalanced getText st'.result ∧ ∀ p ∈ st'.props, AllBalanced (p.atoms getText) := by
  have hholds := (ShapeGraph.resolveMembers_mem hrs hm).1
  have hname : Balanced member.1 := htab.member hs hb _ (by
    rw [← ShapeGraph.resolveMembers_names hrs]
    exact List.mem_map_of_mem _ hm)
  rcases memberStep_cases h with rfl | ⟨prop, ha, rfl⟩ | ⟨inner, prop, ms, V', ha, hcall, rfl⟩
  · exact hst
  · refine ⟨hst.1, fun p hp => ?_⟩
    rcases List.mem_append.mp hp with hp | hp
    · exact hst.2 p hp
    · rw [List.mem_singleton.mp hp]
      exact memberAction_atoms htab hpfx hpp hname hholds ha rfl
  · refine ⟨hst.1.append (hr (memberAction_nest_reachable hholds ha).1 hcall), fun p hp => ?_⟩
    rcases List.mem_append.mp hp with hp | hp
    · exact hst.2 p hp
    · rw [List.mem_singleton.mp hp]
      exact memberAction_atoms htab hpfx hpp hname hholds ha rfl

/-- Every class of a run of `clazz_model` copies only balanced texts, when its arguments do. -/
theorem clazzModel_balanced :
    ∀ (fuel : Nat) {s : Shape} {V : List String} {a : ClazzArgs} {ms : List AwsModel}
      {V' : List String}, a.TextsBalanced → g.Holds s → clazzModel g fuel s V a = .ok (ms, V') →
      ClassesBalanced getText ms
  | 0, _, _, _, _, _, _, _, h => nomatch h
  | fuel + 1, s, V, a, ms, V', ha, hs, h => by
    rw [clazzModel_succ] at h
    by_cases hk : a.key s ∈ V
    · rw [clazzCall_of_mem hk] at h
      cases Except.ok.inj h
      exact fun _ h => nomatch h
    · rcases clazzCall_cases hk h with ⟨-, rfl, -⟩ | ⟨members, rs, st, hb, hrs, hloop, rfl, -⟩
      · exact fun _ h => nomatch h
      have hst := foldlM_invariant
        (fun st : LoopState => ClassesBalanced getText st.result ∧
          ∀ p ∈ st.props, AllBalanced (p.atoms getText))
        (fun _ hm _ _ hst ht => memberStep_balanced htab hs hb hrs ha.pfx ha.pp
          (fun hinner hcall => clazzModel_balanced fuel (nestedArgs_textsBalanced ha.pfx) hinner hcall)
          hm hst ht)
        ⟨fun _ h => absurd h (List.not_mem_nil _), fun _ h => absurd h (List.not_mem_nil _)⟩ hloop
      exact hst.1.append fun m hm => by
        rw [List.mem_singleton.mp hm]
        exact ha.model (htab.shapeName hs) hst.2

end Run

theorem endpointStep_balanced {getText : String → String} {serviceModel : String → ServiceModel}
    {pascalcase : String → String} {service : String} {acc acc' : List AwsModel × List String}
    {ep : AwsResotoModel} (htab : (serviceModel service).shapes.TextsBalanced getText)
    (hep : (endpointArgs service ep).TextsBalanced) (hacc : ClassesBalanced getText acc.1)
    (h : endpointStep serviceModel pascalcase service acc ep = .ok acc') :
    ClassesBalanced getText acc'.1 := by
  obtain ⟨shape, hshape, h⟩ := Except.bind_eq_ok.mp h
  obtain ⟨⟨models, visited⟩, hcall, h⟩ := Except.bind_eq_ok.mp h
  cases Except.ok.inj h
  exact hacc.append
    (clazzModel_balanced htab _ hep (endpointShape_holds (mapError_some_eq_ok hshape)) hcall)

/-- **What the generator prints closes every bracket it opens**, in order: the classes of
`all_models`, each printed by `to_class`, when the shape names, member names and
documentation texts of every service's table balance, and so do the texts each endpoint
passes to `clazz_model` (its prefixes, base class, class name and `api_info`). -/
theorem allModels_printed_balanced (models : PyDict String (List AwsResotoModel))
    (serviceModel : String → ServiceModel) (pascalcase getText : String → String)
    (htables : ∀ e ∈ models.items, (serviceModel e.1).shapes.TextsBalanced getText)
    (hendpoints : ∀ e ∈ models.items, ∀ ep ∈ e.2, (endpointArgs e.1 ep).TextsBalanced)
    {ms : List AwsModel} (h : allModels models serviceModel pascalcase = .ok ms) :
    Balanced (printClasses getText ms) := by
  obtain ⟨⟨result, visited⟩, hloop, h⟩ := Except.bind_eq_ok.mp h
  obtain rfl : result = ms := Except.ok.inj h
  refine balanced_printClasses getText (foldlM_invariant
    (fun acc : List AwsModel × List String => ClassesBalanced getText acc.1)
    (fun _ he _ _ hs h => foldlM_invariant
      (fun acc : List AwsModel × List String => ClassesBalanced getText acc.1)
      (fun ep hep _ _ hs' h' => endpointStep_balanced (htables _ he) (hendpoints _ he ep hep) hs' h')
      hs h)
    (show ClassesBalanced getText [] from fun _ h => nomatch h) hloop)

theorem allModels_printed_balanced_instanceTable :
    (∀ e ∈ (ec2Endpoints "Instance" (some "EC2")).items,
      ((fun _ => ⟨instanceTable, ∅⟩ : String → ServiceModel) e.1).shapes.TextsBalanced id) ∧
    (∀ e ∈ (ec2Endpoints "Instance" (some "EC2")).items, ∀ ep ∈ e.2,
      (endpointArgs e.1 ep).TextsBalanced) ∧
    ∃ ms, allModels (ec2Endpoints "Instance" (some "EC2")) (fun _ => ⟨instanceTable, ∅⟩) id = .ok ms ∧
      Balanced (printClasses id ms) :=
  have htables : ∀ e ∈ (ec2Endpoints "Instance" (some "EC2")).items,
      ((fun _ => ⟨instanceTable, ∅⟩ : String → ServiceModel) e.1).shapes.TextsBalanced id := by
    decide
  have hendpoints : ∀ e ∈ (ec2Endpoints "Instance" (some "EC2")).items, ∀ ep ∈ e.2,
      (endpointArgs e.1 ep).TextsBalanced := by
    decide
  ⟨htables, hendpoints, _, rfl,
    allModels_printed_balanced (ec2Endpoints "Instance" (some "EC2")) (fun _ => ⟨instanceTable, ∅⟩)
      id id htables hendpoints rfl⟩

end AwsModelGen

end Resoto
