import Resoto.Query.BuilderLaws

/-!
# Reading a term from its JSON record (`Term.from_json`)

`set_deserializer(Term.from_json, Term)` makes `from_json` the reader of every term
`jsons` loads. It picks the term class by the fields the record has: `left`/`right`/`op`,
then `name`/`op`, `fn`/`property_path`, `kind`, `id`. `jsons` dumps a term as the record
of its dataclass fields (`Term.basicRecord`), and an `IsTerm`'s one field is `kinds`, a
list: no branch reads it, so every record of an `is(...)` term fails to load
(`fromJson_isTerm`). On the other classes of the fragment the reader does undo the
dump (`fromJson_basicRecord`).
-/

namespace Resoto

namespace Term

theorem sizeOf_lookup_obj {js : List (String × Json)} {k : String} {l : List (String × Json)}
    (h : js.lookup k = some (.obj l)) : sizeOf l < sizeOf js := by
  induction js with
  | nil => simp at h
  | cons e es ih =>
    obtain ⟨k', v⟩ := e
    simp only [List.lookup_cons] at h
    split at h
    · cases h; simp; omega
    · have := ih h; simp; omega

/-- The last two branches of `from_json`. `IsTerm(js["kind"])` passes a `str` where the
list of kinds belongs; iterated, a `str` is its characters. The message of the final
`AttributeError` renders `js`, which is left out. -/
def fromJsonKindId (js : List (String × Json)) : Except PyError Term :=
  match js.lookup "kind", js.lookup "id" with
  | some (.str kind), _ => .ok (.isTerm (kind.data.map String.singleton))
  | _, some (.str id) => .ok (.idTerm id)
  | _, _ => .error (.attributeError "Can not parse json into query")

/-- The `FunctionTerm` branch of `from_json` and the ones after it. -/
def fromJsonFunction (js : List (String × Json)) : Except PyError Term :=
  match js.lookup "fn", js.lookup "property_path" with
  | some (.str fn), some (.str propertyPath) =>
    let argv := match js.lookup "args" with
      | some (.arr argv) => argv
      | _ => []
    .ok (.functionTerm fn propertyPath argv)
  | _, _ => fromJsonKindId js

/-- The branches of `from_json` after the `CombinedTerm` one. -/
def fromJsonLeaf (js : List (String × Json)) : Except PyError Term :=
  match js.lookup "name", js.lookup "op" with
  | some (.str name), some (.str op) =>
    let args := match js.lookup "args" with
      | some (.obj args) => args
      | _ => []
    match js.lookup "value" with
    | some value => .ok (.predicate name op value args)
    | none => .error (.keyError "value")
  | _, _ => fromJsonFunction js

/-- `Term.from_json(js)`. -/
def fromJson (js : List (String × Json)) : Except PyError Term :=
  match hl : js.lookup "left", hr : js.lookup "right", js.lookup "op" with
  | some (.obj left), some (.obj right), some (.str op) => do
    let left ← fromJson left
    let right ← fromJson right
    pure (.combinedTerm left op right)
  | _, _, _ => fromJsonLeaf js
termination_by sizeOf js
decreasing_by
  all_goals simp_wf
  · exact sizeOf_lookup_obj hl
  · exact sizeOf_lookup_obj hr

/-- The record `jsons` dumps for a term built from `CombinedTerm`, `Predicate`,
`FunctionTerm`, `IsTerm` and `IdTerm`: its dataclass fields, nested terms as records;
`none` for any other term. -/
def basicRecord : Term → Option (List (String × Json))
  | .combinedTerm left op right => do
    let left ← left.basicRecord
    let right ← right.basicRecord
    pure [("left", .obj left), ("op", .str op), ("right", .obj right)]
  | .predicate name op value args =>
    some [("name", .str name), ("op", .str op), ("value", value), ("args", .obj args)]
  | .functionTerm fn propertyPath args =>
    some [("fn", .str fn), ("property_path", .str propertyPath), ("args", .arr args)]
  | .isTerm kinds => some [("kinds", .arr (kinds.map .str))]
  | .idTerm id => some [("id", .str id)]
  | _ => none

/-- **An `is(...)` term does not load from its own record.** -/
theorem fromJson_isTerm :
    (Term.isTerm ["aws_instance"]).basicRecord = some [("kinds", .arr [.str "aws_instance"])] ∧
      fromJson [("kinds", .arr [.str "aws_instance"])] =
        .error (.attributeError "Can not parse json into query") := by
  refine ⟨rfl, ?_⟩
  rw [fromJson]
  rfl

/-- Whether an `is(...)` term occurs under the `CombinedTerm`s of a term. -/
def hasIsTerm : Term → Bool
  | .combinedTerm left _ right => left.hasIsTerm || right.hasIsTerm
  | .isTerm _ => true
  | _ => false

/-- **Without `is(...)`, `from_json` undoes the dump.** Every term built from
`CombinedTerm`, `Predicate`, `FunctionTerm` and `IdTerm` loads from its record as itself. -/
theorem fromJson_basicRecord : ∀ (t : Term) {js : List (String × Json)},
    t.hasIsTerm = false → t.basicRecord = some js → fromJson js = .ok t
  | .combinedTerm left op right, js, hn, h => by
    replace hn : (left.hasIsTerm || right.hasIsTerm) = false := hn
    replace h : (left.basicRecord >>= fun lj => right.basicRecord >>= fun rj =>
        pure [("left", .obj lj), ("op", .str op), ("right", .obj rj)]) = some js := h
    rw [Bool.or_eq_false_iff] at hn
    simp only [Option.bind_eq_bind, Option.bind_eq_some, Option.pure_def, Option.some.injEq] at h
    obtain ⟨lj, hl, rj, hr, rfl⟩ := h
    rw [fromJson]
    simp [List.lookup_cons, fromJson_basicRecord left hn.1 hl, fromJson_basicRecord right hn.2 hr]
  | .predicate .., js, _, h | .functionTerm .., js, _, h | .idTerm _, js, _, h => by
    obtain rfl := Option.some.inj h
    rw [fromJson]
    rfl
  | .isTerm _, _, hn, _ => nomatch hn
  | .allTerm, _, _, h | .notTerm _, _, _, h | .mergeTerm .., _, _, h => nomatch h
termination_by structural t => t

theorem fromJson_basicRecord_combined :
    let t : Term := .combinedTerm ((P.single "name").eq (.str "a")) "or" (.idTerm "n1")
    t.hasIsTerm = false ∧ ∃ js, t.basicRecord = some js ∧ fromJson js = .ok t :=
  ⟨rfl, _, rfl, fromJson_basicRecord _ rfl rfl⟩

end Term

end Resoto
