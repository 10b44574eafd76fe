import Resoto.Python.Dict
import Mathlib.Logic.Relation

/-!
# The AWS model generator — botocore shapes and the names the generator gives them

`plugins/aws/tools/aws_model_gen.py` turns the shapes of botocore service descriptions into
attrs classes (`AwsModel`, one `AwsProperty` per member). A service description is a table
of shapes by name, and a shape refers to other shapes by name: the members of a structure,
the member of a list, the key and the value of a map. botocore resolves these references
when the generator reads them; the table may hold cycles (`ShapeGraph`, `Reachable`).

`to_snake` names the properties, `simple_shape` maps a shape to a Python type when it is one
of the simple ones, and `type_name` names every other shape `Aws<prefix><shape name>`.
-/

namespace Resoto

namespace AwsModelGen

/-! ## Shapes -/

/-- The body of a botocore shape. botocore builds a `StructureShape`, `ListShape`, `MapShape`
or `StringShape` for the types `structure`, `list`, `map` and `string`, and a plain `Shape`
for any other type: `scalar` keeps its `type_name`. References to other shapes are names:
the members of a structure in the order of the description, the member of a list, the key
and the value of a map. -/
inductive ShapeBody where
  | structure (members : List (String × String))
  | list (member : String)
  | map (key value : String)
  | string
  | scalar (typeName : String)
deriving DecidableEq

/-- `shape.type_name`. -/
def ShapeBody.typeName : ShapeBody → String
  | .structure _ => "structure"
  | .list _ => "list"
  | .map _ _ => "map"
  | .string => "string"
  | .scalar typeName => typeName

/-- The shapes a `clazz_model` call can walk into from a shape of this body: the members of
a structure, the member of a list and the value of a map. -/
def ShapeBody.children : ShapeBody → List String
  | .structure members => members.map Prod.snd
  | .list member => [member]
  | .map _ value => [value]
  | .string | .scalar _ => []

/-- An entry of a service's shape table. -/
structure ShapeDef where
  documentation : String
  body : ShapeBody
deriving DecidableEq

/-- A botocore `Shape`: a named entry of a shape table. -/
structure Shape where
  name : String
  documentation : String
  body : ShapeBody
deriving DecidableEq

/-- The shape table of a service description. -/
abbrev ShapeGraph := PyDict String ShapeDef

/-- What the generator raises: the `NotImplementedError` of an unsupported member shape, the
`AssertionError` of a map key that is not simple, the `AttributeError` of an operation
without an output shape, and botocore's errors for a shape or an operation the description
does not have (their texts are botocore's, left out). -/
inductive GenError where
  | notImplementedError (msg : String)
  | assertionError (msg : String)
  | attributeError (msg : String)
  | noShapeFound (name : String)
  | operationNotFound (name : String)
deriving DecidableEq

/-- A computation of the generator that may raise. -/
abbrev Gen := Except GenError

/-- A computation of the recursive `clazz_model`, modelled with fuel: a result, an exception
`some e`, or `none` when the fuel ran out, which the program itself cannot do. -/
abbrev Fueled := Except (Option GenError)

section Fueled

variable {α β : Type}

/-- A raising computation run inside `clazz_model` never runs out of fuel. -/
theorem mapError_some_ne_none (x : Gen α) : x.mapError some ≠ .error none := by
  cases x <;> nofun

theorem mapError_some_eq_ok {x : Gen α} {a : α} (h : x.mapError some = .ok a) : x = .ok a := by
  cases x with
  | error e => cases h
  | ok b => cases h; rfl

theorem Fueled.ne_none_of_bind {x : Fueled α} {f : α → Fueled β} (h : x >>= f ≠ .error none) :
    x ≠ .error none :=
  fun hx => h (by rw [hx]; rfl)

theorem Fueled.bind_ne_none {x : Fueled α} {f : α → Fueled β} (hx : x ≠ .error none)
    (hf : ∀ a, x = .ok a → f a ≠ .error none) : x >>= f ≠ .error none := by
  cases x with
  | error e => rintro ⟨⟩; exact hx rfl
  | ok a => exact hf a rfl

/-- Two computations agree when their first steps agree wherever the first of them does not
run out of fuel, and so do their continuations. -/
theorem Fueled.bind_congr {x₁ x₂ : Fueled α} {f₁ f₂ : α → Fueled β}
    (hx : x₁ ≠ .error none → x₂ = x₁) (hf : ∀ a, f₁ a ≠ .error none → f₂ a = f₁ a)
    (h₁ : x₁ >>= f₁ ≠ .error none) : x₂ >>= f₂ = x₁ >>= f₁ := by
  rw [hx (ne_none_of_bind h₁)]
  cases x₁ with
  | error e => rfl
  | ok a => exact hf a h₁

end Fueled

/-- botocore resolving a shape reference: the shape of that name. -/
def ShapeGraph.resolve (g : ShapeGraph) (name : String) : Gen Shape :=
  match g.get? name with
  | some d => .ok ⟨name, d.documentation, d.body⟩
  | none => .error (.noShapeFound name)

/-- `shape.members`, every reference resolved. -/
def ShapeGraph.resolveMembers (g : ShapeGraph) (members : List (String × String)) :
    Gen (List (String × Shape)) :=
  members.mapM fun (name, ref) => (name, ·) <$> g.resolve ref

/-- `s` is the shape the table holds under its name, as `resolve` builds it. -/
def ShapeGraph.Holds (g : ShapeGraph) (s : Shape) : Prop :=
  g.get? s.name = some ⟨s.documentation, s.body⟩

theorem ShapeGraph.resolve_eq_ok {g : ShapeGraph} {name : String} {s : Shape}
    (h : g.resolve name = .ok s) : s.name = name ∧ g.Holds s := by
  unfold ShapeGraph.resolve at h
  cases hd : g.get? name with
  | none => rw [hd] at h; cases h
  | some d => rw [hd] at h; cases Except.ok.inj h; exact ⟨rfl, hd⟩

/-- Every member `resolveMembers` returns is a shape of the table that the structure names. -/
theorem ShapeGraph.resolveMembers_mem {g : ShapeGraph} {members : List (String × String)}
    {rs : List (String × Shape)} (h : g.resolveMembers members = .ok rs) {m : String × Shape}
    (hm : m ∈ rs) : g.Holds m.2 ∧ m.2.name ∈ members.map Prod.snd := by
  induction members generalizing rs with
  | nil => cases Except.ok.inj h; cases hm
  | cons r members ih =>
    obtain ⟨name, ref⟩ := r
    rw [resolveMembers, List.mapM_cons] at h
    obtain ⟨m', hm', h⟩ := Except.bind_eq_ok.mp h
    obtain ⟨rest, hrest, h⟩ := Except.bind_eq_ok.mp h
    cases Except.ok.inj h
    rcases List.mem_cons.mp hm with rfl | hm
    · replace hm' : (name, ·) <$> g.resolve ref = .ok m := hm'
      cases hr : g.resolve ref with
      | error e => rw [hr] at hm'; cases hm'
      | ok s =>
        rw [hr] at hm'
        cases Except.ok.inj hm'
        have ⟨hname, hholds⟩ := resolve_eq_ok hr
        exact ⟨hholds, hname ▸ List.mem_cons_self _ _⟩
    · have ⟨hholds, hname⟩ := ih hrest hm
      exact ⟨hholds, List.mem_cons_of_mem _ hname⟩

/-- One step of `clazz_model` through the shape table: from a shape to a child of its body. -/
def ShapeGraph.Step (g : ShapeGraph) (a b : String) : Prop :=
  ∃ d, g.get? a = some d ∧ b ∈ d.body.children

/-- The shapes reachable from a shape through members, list members and map values. -/
def ShapeGraph.Reachable (g : ShapeGraph) : String → String → Prop :=
  Relation.ReflTransGen g.Step

/-! ## Names -/

/-- `x or y` for an optional string `x`: `x` when it is a non-empty string, `y` otherwise. -/
def strOr (x : Option String) (y : String) : String :=
  if truthyStr x then x.getD y else y

/-- The rendering of `prefix` in `f"Aws{prefix}{s.name}"`: `None` renders as `"None"`. -/
def renderPrefix : Option String → String
  | some p => p
  | none => "None"

@[simp] theorem strOr_some (p : String) : strOr (some p) "" = p := by
  by_cases hp : p = "" <;> simp [strOr, truthyStr, hp]

@[simp] theorem strOr_none (y : String) : strOr none y = y := rfl

@[simp] theorem renderPrefix_some (p : String) : renderPrefix (some p) = p := rfl

/-- `s.lower()`, on ASCII letters. -/
def lower (s : String) : String := ⟨s.data.map Char.toLower⟩

/-- `simple_type_map`, with the lower-cased keys `|=` adds. -/
def simpleTypeMap : List (String × String) :=
  let base := [("Long", "int"), ("Float", "float"), ("Double", "float"), ("Integer", "int"),
    ("Boolean", "bool"), ("String", "str"), ("DateTime", "datetime"), ("Timestamp", "datetime"),
    ("TagsMap", "Dict[str, str]"), ("MillisecondDateTime", "datetime"), ("SearchString", "str")]
  base ++ base.map fun (k, v) => (lower k, v)

/-- `simple_shape(s)`. -/
def simpleShape (s : Shape) : Option String :=
  if s.body = .string then some "str"
  else (simpleTypeMap.lookup s.name).or (simpleTypeMap.lookup s.body.typeName)

/-- `type_name(s)`, with `prefix` rendered as `pfx`. -/
def typeName (pfx : String) (s : Shape) : String :=
  (simpleShape s).getD ("Aws" ++ pfx ++ s.name)

/-- `complex_simple_shape(s)`: a structure of one member of a simple shape gives that
member's name and type. `s.members` resolves every member first. -/
def complexSimpleShape (g : ShapeGraph) (s : Shape) : Gen (Option (String × String)) :=
  match s.body with
  | .structure members => do
    match ← g.resolveMembers members with
    | [(name, shape)] => pure ((simpleShape shape).map (name, ·))
    | _ => pure none
  | _ => pure none

/-! ## `to_snake` -/

mutual

/-- `re.sub("(.)([A-Z][a-z]+)", r"\1_\2", …)` from the character `c` on, followed by
`rest`: a match puts `_` before the upper-case letter and consumes the lower-case run. -/
def snakeWordsFrom (c : Char) : List Char → List Char
  | u :: l :: rest =>
    if c ≠ '\n' ∧ u.isUpper ∧ l.isLower then c :: '_' :: u :: l :: snakeWordsRun rest
    else c :: snakeWordsFrom u (l :: rest)
  | rest => c :: rest

/-- The rest of the lower-case run of a match, then the scan on. -/
def snakeWordsRun : List Char → List Char
  | x :: xs => if x.isLower then x :: snakeWordsRun xs else snakeWordsFrom x xs
  | [] => []

end

/-- `re.sub("(.)([A-Z][a-z]+)", r"\1_\2", name)`. -/
def snakeWords : List Char → List Char
  | c :: rest => snakeWordsFrom c rest
  | [] => []

/-- `re.sub("__([A-Z])", r"_\1", name)`. -/
def snakeUnderscores : List Char → List Char
  | '_' :: '_' :: u :: rest =>
    if u.isUpper then '_' :: u :: snakeUnderscores rest else '_' :: snakeUnderscores ('_' :: u :: rest)
  | c :: rest => c :: snakeUnderscores rest
  | [] => []

/-- `re.sub("([a-z0-9])([A-Z])", r"\1_\2", name)`. -/
def snakeCase : List Char → List Char
  | c :: u :: rest =>
    if (c.isLower ∨ c.isDigit) ∧ u.isUpper then c :: '_' :: u :: snakeCase rest
    else c :: snakeCase (u :: rest)
  | cs => cs

/-- `to_snake(name)`. -/
def toSnake (name : String) : String :=
  lower ⟨snakeCase (snakeUnderscores (snakeWords name.data))⟩

example : toSnake "InstanceId" = "instance_id" := by decide
example : toSnake "HTTPResponseCode" = "http_response_code" := by decide
example : toSnake "Tags" = "tags" := by decide

/-- `ignore_props`. -/
def ignoreProps : List String := ["Tags", "tags"]

/-! ## The generated classes -/

/-- `AwsProperty`. `from_name` is a member name or the path of two names. -/
structure AwsProperty where
  name : String
  fromName : String ⊕ List String
  type : String
  description : String
  isArray : Bool := false
  isComplex : Bool := false
  fieldDefault : Option String := none
  extractor : Option String := none
deriving DecidableEq

/-- `AwsModel`. -/
structure AwsModel where
  name : String
  props : List AwsProperty
  aggregateRoot : Bool
  baseClass : Option String := none
  apiInfo : Option (String × String × String) := none
deriving DecidableEq

/-- `AwsResotoModel`: an endpoint of a service; `resourcePrefix` is its `prefix`. -/
structure AwsResotoModel where
  apiAction : String
  resultProperty : String
  resultShape : Option String := none
  resourcePrefix : Option String := none
  propPrefix : Option String := none
  name : Option String := none
  base : Option String := none
deriving DecidableEq

/-- The part of a botocore `ServiceModel` the generator reads: its shape table, and the
output shape of each operation (`None` for an operation without output). -/
structure ServiceModel where
  shapes : ShapeGraph
  operations : PyDict String (Option String)

end AwsModelGen

end Resoto
