import Mathlib.Data.List.Basic

/-!
# Python values the query model and the inspector read

The Python code works on `str`, on JSON documents (`Json`, `JsonElement`) and raises a
few exception classes. Strings are Lean `String`s; the `str` methods the source calls are
written over `String.data`, the list of code points a Python `str` also is, so that they
evaluate by `decide`. A JSON number is an `Int`: the model covers documents whose numbers are
integers, and leaves floats out.
-/

namespace Resoto

/-! ## `str` methods -/

/-- `s.startswith(p)`. -/
def startswith (s p : String) : Bool := p.data.isPrefixOf s.data

/-- `p in s`: `p` occurs in `s` at some position. -/
def strContains (s p : String) : Bool := s.data.tails.any p.data.isPrefixOf

example : strContains "is(aws_ec2_instance)" "aws_ec2_instance" = true := by decide
example : strContains "is(aws_ec2_instance)" "aws_s3_bucket" = false := by decide

/-- `s[n:]`. -/
def dropPrefix (s : String) (n : Nat) : String := ⟨s.data.drop n⟩

/-- `s.split(sep, maxsplit)` for a one-character separator, on code points. -/
def splitChars (sep : Char) : Nat → List Char → List (List Char)
  | 0, cs => [cs]
  | n + 1, cs =>
    match cs.span (· != sep) with
    | (before, _ :: after) => before :: splitChars sep n after
    | (before, []) => [before]

/-- `s.split(sep, maxsplit)`. -/
def split (s : String) (sep : Char) (maxsplit : Nat) : List String :=
  (splitChars sep maxsplit s.data).map String.mk

/-- At most `maxsplit + 1` parts. -/
theorem length_splitChars_le (sep : Char) : ∀ (n : Nat) (cs : List Char),
    (splitChars sep n cs).length ≤ n + 1
  | 0, cs => by simp [splitChars]
  | n + 1, cs => by
    rw [splitChars]
    split
    · simpa using length_splitChars_le sep n _
    · simp

/-- At most one part more than there are separators. -/
theorem length_splitChars_le_count (sep : Char) : ∀ (n : Nat) (cs : List Char),
    (splitChars sep n cs).length ≤ cs.count sep + 1
  | 0, cs => by simp [splitChars]
  | n + 1, cs => by
    have hcount : cs.count sep = (cs.dropWhile (· != sep)).count sep := by
      conv_lhs => rw [← List.takeWhile_append_dropWhile (· != sep) cs]
      rw [List.count_append, List.count_eq_zero_of_not_mem fun h => by
        simpa using List.mem_takeWhile_imp h, Nat.zero_add]
    rw [splitChars, List.span_eq_take_drop]
    split
    · rename_i before c after heq
      have hd : cs.dropWhile (· != sep) = c :: after := (Prod.mk.inj heq).2
      have hc : c = sep := by
        simpa [hd] using List.head_dropWhile_not (· != sep) cs (by simp [hd])
      have ih := length_splitChars_le_count sep n after
      rw [hcount, hd, hc, List.count_cons_self, List.length_cons]
      omega
    · simp

theorem length_split_le (s : String) (sep : Char) (maxsplit : Nat) :
    (split s sep maxsplit).length ≤ maxsplit + 1 := by
  simpa [split] using length_splitChars_le sep maxsplit s.data

theorem length_split_le_count (s : String) (sep : Char) (maxsplit : Nat) :
    (split s sep maxsplit).length ≤ s.data.count sep + 1 := by
  simpa [split] using length_splitChars_le_count sep maxsplit s.data

example : split "ancestors.account.reported.id" '.' 2 = ["ancestors", "account", "reported.id"] := by
  decide
example : split "ancestors.account" '.' 2 = ["ancestors", "account"] := by decide

/-- Truthiness of an `Optional[str]`: `None` and `""` are false. -/
def truthyStr : Option String → Bool
  | some s => s != ""
  | none => false

/-- The exceptions the modelled code raises. A collaborator outside the repository may
raise anything: `exception` carries its message. -/
inductive PyError where
  | attributeError (msg : String)
  | valueError (msg : String)
  | notImplementedError (msg : String)
  | keyError (key : String)
  | notFoundError (msg : String)
  | typeError (msg : String)
  | exception (msg : String)
deriving DecidableEq, Repr

/-- `str(e)`: the message of an exception; a `KeyError` quotes its key. -/
def PyError.str : PyError → String
  | .attributeError msg | .valueError msg | .notImplementedError msg | .notFoundError msg
  | .typeError msg | .exception msg => msg
  | .keyError key => "\x27" ++ key ++ "\x27"

/-- A computation of the code that returns `b` ran each step to a value. -/
@[simp] theorem Except.bind_eq_ok {ε α β : Type} {x : Except ε α} {f : α → Except ε β} {b : β} :
    x >>= f = .ok b ↔ ∃ a, x = .ok a ∧ f a = .ok b := by
  cases x <;> simp [bind, Except.bind]

@[simp] theorem Except.ok_bind {ε α β : Type} (a : α) (f : α → Except ε β) :
    (Except.ok a : Except ε α) >>= f = f a := rfl

/-- A computation mapped by `f` returned `b`: it returned some `a` with `f a = b`. -/
theorem Except.map_eq_ok {ε α β : Type} {f : α → β} {x : Except ε α} {b : β} :
    f <$> x = .ok b ↔ ∃ a, x = .ok a ∧ f a = b := by
  cases x <;> simp [Functor.map, Except.map]

@[simp] theorem Except.pure_eq_ok {ε α : Type} {a b : α} : (pure a : Except ε α) = .ok b ↔ a = b := by
  simp [pure, Except.pure]

/-- A loop whose step raises on the items that fail `ok` and applies `g` to the others
returns iff every item passes, and then it returns the loop of `g`. -/
theorem Except.foldlM_eq_ok {ε σ α : Type} {f : σ → α → Except ε σ} {g : σ → α → σ}
    (ok : α → Prop) (hok : ∀ s x, ok x → f s x = .ok (g s x))
    (hbad : ∀ s x, ¬ok x → ∀ t, f s x ≠ .ok t) :
    ∀ {xs : List α} {s t : σ}, xs.foldlM f s = .ok t ↔ (∀ x ∈ xs, ok x) ∧ t = xs.foldl g s
  | [], s, t => by
    rw [List.foldlM_nil, Except.pure_eq_ok]
    simp [eq_comm]
  | x :: xs, s, t => by
    rw [List.foldlM_cons, Except.bind_eq_ok, List.forall_mem_cons, List.foldl_cons]
    by_cases hx : ok x
    · simp only [hok s x hx, Except.ok.injEq, exists_eq_left', Except.foldlM_eq_ok ok hok hbad,
        hx, true_and]
    · exact ⟨fun ⟨a, ha, _⟩ => absurd ha (hbad s x hx a), fun h => absurd h.1.1 hx⟩

/-! ## JSON -/

/-- A JSON value (`JsonElement`); an object keeps its members in document order. -/
inductive Json where
  | null
  | bool (b : Bool)
  | num (n : Int)
  | str (s : String)
  | arr (xs : List Json)
  | obj (kvs : List (String × Json))
deriving Repr, Inhabited

namespace Json

/-! `DecidableEq` is not derivable for a nested inductive here: a structural Boolean
equality and its correctness give it. -/

mutual
def beq : Json → Json → Bool
  | .null, .null => true
  | .bool a, .bool b => a == b
  | .num a, .num b => a == b
  | .str a, .str b => a == b
  | .arr xs, .arr ys => beqList xs ys
  | .obj xs, .obj ys => beqObj xs ys
  | _, _ => false
def beqList : List Json → List Json → Bool
  | [], [] => true
  | x :: xs, y :: ys => x.beq y && beqList xs ys
  | _, _ => false
def beqObj : List (String × Json) → List (String × Json) → Bool
  | [], [] => true
  | (k, x) :: xs, (l, y) :: ys => k == l && x.beq y && beqObj xs ys
  | _, _ => false
end

mutual
theorem beq_iff : ∀ a b : Json, a.beq b = true ↔ a = b
  | .null, .null => ⟨fun _ => rfl, fun _ => rfl⟩
  | .bool x, .bool y => (beq_iff_eq : (x == y) = true ↔ x = y).trans (bool.injEq x y).symm.to_iff
  | .num x, .num y => (beq_iff_eq : (x == y) = true ↔ x = y).trans (num.injEq x y).symm.to_iff
  | .str x, .str y => (beq_iff_eq : (x == y) = true ↔ x = y).trans (str.injEq x y).symm.to_iff
  | .arr xs, .arr ys => (beqList_iff xs ys).trans (arr.injEq xs ys).symm.to_iff
  | .obj xs, .obj ys => (beqObj_iff xs ys).trans (obj.injEq xs ys).symm.to_iff
  | .null, .bool _ | .null, .num _ | .null, .str _ | .null, .arr _ | .null, .obj _
  | .bool _, .null | .bool _, .num _ | .bool _, .str _ | .bool _, .arr _ | .bool _, .obj _
  | .num _, .null | .num _, .bool _ | .num _, .str _ | .num _, .arr _ | .num _, .obj _
  | .str _, .null | .str _, .bool _ | .str _, .num _ | .str _, .arr _ | .str _, .obj _
  | .arr _, .null | .arr _, .bool _ | .arr _, .num _ | .arr _, .str _ | .arr _, .obj _
  | .obj _, .null | .obj _, .bool _ | .obj _, .num _ | .obj _, .str _ | .obj _, .arr _ =>
    ⟨nofun, nofun⟩
theorem beqList_iff : ∀ xs ys : List Json, beqList xs ys = true ↔ xs = ys
  | [], [] => ⟨fun _ => rfl, fun _ => rfl⟩
  | [], _ :: _ | _ :: _, [] => ⟨nofun, nofun⟩
  | x :: xs, y :: ys => by
    rw [show beqList (x :: xs) (y :: ys) = (x.beq y && beqList xs ys) from rfl, Bool.and_eq_true,
      beq_iff x y, beqList_iff xs ys, List.cons.injEq]
theorem beqObj_iff : ∀ xs ys : List (String × Json), beqObj xs ys = true ↔ xs = ys
  | [], [] => ⟨fun _ => rfl, fun _ => rfl⟩
  | [], _ :: _ | _ :: _, [] => ⟨nofun, nofun⟩
  | (k, x) :: xs, (l, y) :: ys => by
    rw [show beqObj ((k, x) :: xs) ((l, y) :: ys) = (k == l && x.beq y && beqObj xs ys) from rfl,
      Bool.and_eq_true, Bool.and_eq_true, beq_iff_eq, beq_iff x y, beqObj_iff xs ys, List.cons.injEq,
      Prod.mk.injEq, and_assoc]
end


instance : DecidableEq Json := fun a b => decidable_of_iff _ (beq_iff a b)

/-- `js.get(key)` on an object; `None` on a missing key or a value that is no object. -/
def get? : Json → String → Option Json
  | .obj kvs, key => kvs.lookup key
  | _, _ => none

/-- Python truthiness: `None`, `False`, `0`, `""`, `[]` and `{}` are false. -/
def truthy : Json → Bool
  | .null => false
  | .bool b => b
  | .num n => n != 0
  | .str s => s != ""
  | .arr xs => !xs.isEmpty
  | .obj kvs => !kvs.isEmpty

end Json

/-- Modelled from the spec: `value_in_path` (core.util, not under src/) reads the value at
a dotted path of object keys, `None` when a step is missing or lands on a non-object. -/
def valueInPath (js : Json) : List String → Option Json
  | [] => some js
  | key :: path => (js.get? key).bind (valueInPath · path)

end Resoto
