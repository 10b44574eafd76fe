import Resoto.Query.Analytics

/-!
# The query model — §6, the query text (`__str__`)

`str(query)` prints a query in the query language, each class by its `__str__`, down
through parts, with-clauses and merge queries. JSON values are printed by two functions the
module imports: `to_js_str` (core.model.typed_model, not under src/) for predicate values,
function arguments and the preamble, and Python's `str` for the `filter` argument of a
predicate. They are the parameters `toJsStr` and `pyStr`.

The text closes every bracket it opens, in order, whenever the texts it copies verbatim do
(`Query.str_balanced`). A limit of `0` is falsy, so `with_limit(0)` prints as the query
without a limit, and no other limit is lost (`str_withLimit`).
-/

namespace Resoto

/-! ## Brackets -/

/-- The closing bracket of an opening one. -/
def closerOf : Char → Option Char
  | '(' => some ')'
  | '[' => some ']'
  | '\x7b' => some '\x7d'
  | _ => none

/-- The closing brackets. -/
def isCloser (c : Char) : Bool := c == ')' || c == ']' || c == '\x7d'

/-- Reading `cs` with the stack `st` of the closers still expected: an opening bracket pushes
its closer, a closing one must be on top and pops it (`none` if it is not), and any other
character leaves the stack as it is. -/
def bracketStack : List Char → List Char → Option (List Char)
  | st, [] => some st
  | st, c :: cs =>
    match closerOf c with
    | some close => bracketStack (close :: st) cs
    | none =>
      if isCloser c then
        match st with
        | top :: st' => if top = c then bracketStack st' cs else none
        | [] => none
      else bracketStack st cs

/-- Reading `s` from the empty stack leaves the closers `st` expected. -/
def Reads (s : String) (st : List Char) : Prop := bracketStack [] s.data = some st

/-- `s` closes every bracket it opens, in order, and no other. -/
def Balanced (s : String) : Prop := Reads s []

instance : DecidablePred Balanced := fun s =>
  inferInstanceAs (Decidable (bracketStack [] s.data = some []))

example : Balanced "is([\"a\", \"b\"]) \x7bx: all\x7d" ∧ ¬Balanced "not(all" ∧ ¬Balanced "(]" := by
  decide

theorem bracketStack_append (a b : List Char) : ∀ st,
    bracketStack st (a ++ b) = (bracketStack st a).bind fun st' => bracketStack st' b := by
  induction a with
  | nil => intro; rfl
  | cons c a ih =>
    intro st
    rcases hc : closerOf c with _ | close
    · by_cases hcl : isCloser c = true
      · rcases st with _ | ⟨top, st⟩
        · simp only [List.cons_append, bracketStack, hc, hcl, if_true]
          rfl
        · by_cases ht : top = c
          · simp only [List.cons_append, bracketStack, hc, hcl, ht, if_true]
            exact ih st
          · simp only [List.cons_append, bracketStack, hc, hcl, ht, if_true, if_false]
            rfl
      · simp only [List.cons_append, bracketStack, hc, hcl, if_false]
        exact ih st
    · simp only [List.cons_append, bracketStack, hc]
      exact ih _

/-- What reading does not look at, below the stack, stays. -/
theorem bracketStack_frame (x : List Char) : ∀ (a : List Char) {st st' : List Char},
    bracketStack st a = some st' → bracketStack (st ++ x) a = some (st' ++ x)
  | [], _, _, h => by cases h; rfl
  | c :: a, st, st', h => by
    rcases hc : closerOf c with _ | close
    · by_cases hcl : isCloser c = true
      · rcases st with _ | ⟨top, st⟩
        · simp only [bracketStack, hc, hcl, if_true] at h
          cases h
        · by_cases ht : top = c
          · simp only [bracketStack, hc, hcl, ht, if_true, List.cons_append] at h ⊢
            exact bracketStack_frame x a h
          · simp only [bracketStack, hc, hcl, ht, if_true, if_false] at h
            cases h
      · simp only [bracketStack, hc, hcl, if_false] at h ⊢
        exact bracketStack_frame x a h
    · simp only [bracketStack, hc] at h ⊢
      exact bracketStack_frame x a h

section Reading

variable {p a l : String} {st st' : List Char}

/-- A literal read after `p` moves the stack as it does on its own. -/
theorem Reads.lit (h : Reads p st) (hl : bracketStack st l.data = some st') : Reads (p ++ l) st' := by
  unfold Reads at *
  rw [String.data_append, bracketStack_append, h]
  exact hl

/-- A balanced text read after `p` leaves the stack as it was. -/
theorem Reads.bal (h : Reads p st) (ha : Balanced a) : Reads (p ++ a) st :=
  h.lit (bracketStack_frame st a.data ha)

theorem Balanced.append {b : String} (ha : Balanced a) (hb : Balanced b) : Balanced (a ++ b) :=
  Reads.bal ha hb

/-- `o(a)c`: a balanced text between a text that opens a bracket and one that closes it. -/
theorem Reads.close {c : String} {k : Char} (h : Reads p [k]) (ha : Balanced a)
    (hc : bracketStack [k] c.data = some []) : Balanced (p ++ a ++ c) :=
  (h.bal ha).lit hc

end Reading

/-- `sep.join(l)` of balanced texts. -/
theorem Balanced.intercalate_go {sep : String} (hsep : Balanced sep) (l : List String) :
    ∀ {acc : String}, Balanced acc → (∀ s ∈ l, Balanced s) →
      Balanced (String.intercalate.go acc sep l) := by
  induction l with
  | nil => exact fun hacc _ => hacc
  | cons s l ih =>
    intro acc hacc h
    rw [List.forall_mem_cons] at h
    exact ih ((hacc.append hsep).append h.1) h.2

theorem Balanced.intercalate {sep : String} {l : List String} (hsep : Balanced sep)
    (h : ∀ s ∈ l, Balanced s) : Balanced (sep.intercalate l) := by
  cases l with
  | nil => rfl
  | cons s l =>
    rw [List.forall_mem_cons] at h
    exact hsep.intercalate_go l h.1 h.2

/-! ### Numbers -/

/-- A character that is no bracket. -/
def isPlain (c : Char) : Bool := closerOf c == none && !isCloser c

theorem bracketStack_of_plain : ∀ {cs : List Char}, (∀ c ∈ cs, isPlain c = true) →
    ∀ st, bracketStack st cs = some st
  | [], _, _ => rfl
  | c :: cs, h, st => by
    rw [List.forall_mem_cons] at h
    have hc := h.1
    simp only [isPlain, Bool.and_eq_true, beq_iff_eq, Bool.not_eq_true'] at hc
    simp only [bracketStack, hc.1, hc.2, Bool.false_eq_true, if_false]
    exact bracketStack_of_plain h.2 st

theorem toDigitsCore_plain : ∀ (fuel n : Nat) {ds : List Char}, (∀ c ∈ ds, isPlain c = true) →
    ∀ c ∈ Nat.toDigitsCore 10 fuel n ds, isPlain c = true
  | 0, _, _, h => h
  | fuel + 1, n, ds, h => by
    have hdigit : ∀ d, d < 10 → isPlain (Nat.digitChar d) = true := by decide
    have hd : ∀ c ∈ Nat.digitChar (n % 10) :: ds, isPlain c = true :=
      List.forall_mem_cons.mpr ⟨hdigit _ (Nat.mod_lt n (by decide)), h⟩
    show ∀ c ∈ (if n / 10 = 0 then Nat.digitChar (n % 10) :: ds
      else Nat.toDigitsCore 10 fuel (n / 10) (Nat.digitChar (n % 10) :: ds)), isPlain c = true
    split
    · exact hd
    · exact toDigitsCore_plain fuel _ hd

/-- The decimal text of a number has no bracket. -/
theorem balanced_toString_nat (m : Nat) : Balanced (toString m) :=
  bracketStack_of_plain (toDigitsCore_plain (m + 1) m (List.forall_mem_nil _)) []

theorem balanced_toString_int (i : Int) : Balanced (toString i) := by
  cases i with
  | ofNat m => exact balanced_toString_nat m
  | negSucc m => exact Balanced.append (show Balanced "-" from rfl) (balanced_toString_nat (m + 1))

/-! ## The printers -/

/-- `str(navigation)`: the depth in brackets (none for one step, no upper bound for `Max`),
after the edge type unless it is the default, inside the arrow of the direction. -/
def Navigation.str (n : Navigation) : String :=
  let untilStr := if n.until = Navigation.Max then "" else toString n.until
  let depth :=
    if n.start = n.until then (if n.start = 1 then "" else "[" ++ toString n.start ++ "]")
    else "[" ++ toString n.start ++ ":" ++ untilStr ++ "]"
  let nav := if n.edgeType = EdgeType.default then depth else n.edgeType ++ depth
  if n.direction = Direction.outbound then "-" ++ nav ++ "->"
  else if n.direction = Direction.inbound then "<-" ++ nav ++ "-"
  else "<-" ++ nav ++ "->"

/-- `str(with_filter)`: `empty` for `== 0`, `any` for `> 0`, otherwise `count` with the
operator and the number. -/
def WithClauseFilter.str (f : WithClauseFilter) : String :=
  if f.op = "==" ∧ f.num = 0 then "empty"
  else if f.op = ">" ∧ f.num = 0 then "any"
  else "count" ++ f.op ++ toString f.num

/-- `f" as {as_name}" if as_name else ""`. -/
def asStr (asName : Option String) : String :=
  if truthyStr asName then " as " ++ asName.getD "" else ""

/-- `str(v)` of a grouping variable. -/
def AggregateVariable.str (v : AggregateVariable) : String := v.nameStr ++ asStr v.asName

/-- `str(f)` of an aggregate function: `function(name ops)`, then its `as` name. -/
def AggregateFunction.str (f : AggregateFunction) : String :=
  let withOps := if f.ops.isEmpty then ""
    else " " ++ " ".intercalate (f.ops.map fun (op, value) => op ++ " " ++ toString value)
  f.function ++ "(" ++ f.nameStr ++ withOps ++ ")" ++ asStr f.asName

/-- `str(aggregate)`: `aggregate(groups: functions)`, the groups and their colon left out
when there are none. -/
def Aggregate.str (a : Aggregate) : String :=
  let grouped := if a.groupBy.isEmpty then ""
    else ", ".intercalate (a.groupBy.map AggregateVariable.str) ++ ": "
  "aggregate(" ++ grouped ++ ", ".intercalate (a.groupFunc.map AggregateFunction.str) ++ ")"

/-- `str(IsTerm(kinds))`: the kinds in quotes, in brackets unless there is exactly one. -/
def isTermStr (kinds : List String) : String :=
  let kindString := ", ".intercalate (kinds.map fun a => "\"" ++ a ++ "\"")
  "is(" ++ (if kinds.length = 1 then kindString else "[" ++ kindString ++ "]") ++ ")"

/-- `#tag`, left out for no tag and for the empty one. -/
def tagStr (tag : Option String) : String := if truthyStr tag then "#" ++ tag.getD "" else ""

/-- ` sort name order,name order`, left out for no sort. -/
def sortStr (sort : List SortBy) : String :=
  if sort.isEmpty then "" else " sort " ++ ",".intercalate (sort.map fun a => a.name ++ " " ++ a.order)

/-- ` limit n`, left out for no limit and for the falsy limit `0`. -/
def limitStr : Option Int → String
  | some n => if n = 0 then "" else " limit " ++ toString n
  | none => ""

/-- `str(aggregate) if aggregate else ""`: an `Aggregate` is truthy. -/
def aggregateStr : Option Aggregate → String
  | some a => a.str
  | none => ""

/-- ` navigation`, left out for none. -/
def navigationStr : Option Navigation → String
  | some n => " " ++ n.str
  | none => ""

section Render

variable (toJsStr pyStr : Json → String)

/-- The `filter` modifier of a predicate, `args["filter"]` and a blank, when it has one. -/
def predicateModifier (args : List (String × Json)) : String :=
  match findValue "filter" args with
  | some f => pyStr f ++ " "
  | none => ""

/-- `str(FunctionTerm(fn, property_path, args))`, the comma left out when the arguments print
as nothing. -/
def functionTermStr (fn propertyPath : String) (args : List Json) : String :=
  let argsStr := ", ".intercalate (args.map toJsStr)
  fn ++ "(" ++ propertyPath ++ (if argsStr = "" then "" else ", ") ++ argsStr ++ ")"

/-- The preamble in parentheses, `key=value`, left out when it is empty. -/
def preambleStr (preamble : PyDict String Json) : String :=
  if preamble.items.isEmpty then ""
  else "(" ++ ", ".intercalate (preamble.items.map fun (k, v) => k ++ "=" ++ toJsStr v) ++ ")"

mutual

/-- `str(term)`. -/
def Term.str : Term → String
  | .allTerm => "all"
  | .notTerm term => "not(" ++ term.str ++ ")"
  | .predicate name op value args =>
    name ++ " " ++ predicateModifier pyStr args ++ op ++ " " ++ toJsStr value
  | .combinedTerm left op right => "(" ++ left.str ++ " " ++ op ++ " " ++ right.str ++ ")"
  | .idTerm id => "id(\"" ++ id ++ "\")"
  | .isTerm kinds => isTermStr kinds
  | .functionTerm fn propertyPath args => functionTermStr toJsStr fn propertyPath args
  | .mergeTerm preFilter merge postFilter =>
    preFilter.str ++ " \x7b" ++ ", ".intercalate (MergeQuery.strs merge) ++ "\x7d" ++
      Term.strOpt postFilter
termination_by structural t => t

/-- `" " + str(term) if term else ""`: a term is truthy. -/
def Term.strOpt : Option Term → String
  | some t => " " ++ t.str
  | none => ""
termination_by structural t => t

/-- `[str(q) for q in merge]`. -/
def MergeQuery.strs : List MergeQuery → List String
  | [] => []
  | mq :: mqs => MergeQuery.str mq :: MergeQuery.strs mqs
termination_by structural mqs => mqs

/-- `str(merge_query)`: `name: query`, `name[]: query` when it keeps every result. -/
def MergeQuery.str : MergeQuery → String
  | ⟨name, query, onlyFirst⟩ => name ++ (if onlyFirst then "" else "[]") ++ ": " ++ Query.str query
termination_by structural mq => mq

/-- `str(query)`: the aggregate, the preamble, a colon after either, then the parts from the
last to the first. -/
def Query.str : Query → String
  | ⟨current, rest, preamble, aggregate⟩ =>
    aggregateStr aggregate ++ preambleStr toJsStr preamble ++
      (if !preamble.items.isEmpty || aggregate.isSome then ":" else "") ++
      " ".intercalate ((Part.strs rest).reverse ++ [Part.str current])
termination_by structural q => q

/-- `[str(p) for p in parts]`. -/
def Part.strs : List Part → List String
  | [] => []
  | p :: ps => Part.str p :: Part.strs ps
termination_by structural ps => ps

/-- `str(part)`: the term, the with-clause, the tag, the sort, the limit and the navigation. -/
def Part.str : Part → String
  | ⟨term, tag, withClause, sort, limit, navigation⟩ =>
    term.str ++ WithClause.strOpt withClause ++ tagStr tag ++ sortStr sort ++ limitStr limit ++
      navigationStr navigation
termination_by structural p => p

/-- `str(with_clause)`: `with(filter, navigation term with_clause)`. -/
def WithClause.str : WithClause → String
  | ⟨withFilter, navigation, term, withClause⟩ =>
    "with(" ++ withFilter.str ++ ", " ++ navigation.str ++ Term.strOpt term ++
      WithClause.strOpt withClause ++ ")"
termination_by structural w => w

/-- `" " + str(with_clause) if with_clause else ""`: a with-clause is truthy. -/
def WithClause.strOpt : Option WithClause → String
  | some w => " " ++ WithClause.str w
  | none => ""
termination_by structural w => w

end

end Render

example : instanceAgeQuery.str (fun _ => "v") (fun _ => "f") =
    "(reported.kind = v and reported.age > v)" := by
  decide

/-! ## The texts copied verbatim

Names, operators, kinds, ids, tags, sort orders, edge types, `as` names and the printed JSON
values: the printers copy them into the text as they are. -/

/-- The texts `str(v)` of a grouping variable copies. -/
def AggregateVariable.atoms (v : AggregateVariable) : List String :=
  (match v.name with
    | .inl n => [n.name]
    | .inr c => c.parts.map fun
      | .inl s => s
      | .inr n => n.name) ++ v.asName.toList

/-- The texts `str(f)` of an aggregate function copies. -/
def AggregateFunction.atoms (f : AggregateFunction) : List String :=
  f.function :: (match f.name with
    | .inl s => [s]
    | .inr _ => []) ++ f.ops.map Prod.fst ++ f.asName.toList

/-- The texts `str(aggregate)` copies. -/
def Aggregate.atoms (a : Aggregate) : List String :=
  a.groupBy.flatMap AggregateVariable.atoms ++ a.groupFunc.flatMap AggregateFunction.atoms

section Atoms

variable (toJsStr pyStr : Json → String)

/-- The printed `filter` argument of a predicate. -/
def modifierAtoms (args : List (String × Json)) : List String :=
  (findValue "filter" args).toList.map pyStr

mutual

/-- The texts `str(term)` copies. -/
def Term.atoms : Term → List String
  | .allTerm => []
  | .notTerm term => term.atoms
  | .predicate name op value args => name :: modifierAtoms pyStr args ++ [op, toJsStr value]
  | .combinedTerm left op right => left.atoms ++ op :: right.atoms
  | .idTerm id => [id]
  | .isTerm kinds => kinds
  | .functionTerm fn propertyPath args => fn :: propertyPath :: args.map toJsStr
  | .mergeTerm preFilter merge postFilter =>
    preFilter.atoms ++ MergeQuery.atomsList merge ++ Term.atomsOpt postFilter
termination_by structural t => t

def Term.atomsOpt : Option Term → List String
  | some t => t.atoms
  | none => []
termination_by structural t => t

def MergeQuery.atomsList : List MergeQuery → List String
  | [] => []
  | mq :: mqs => MergeQuery.atoms mq ++ MergeQuery.atomsList mqs
termination_by structural mqs => mqs

def MergeQuery.atoms : MergeQuery → List String
  | ⟨name, query, _⟩ => name :: Query.atoms query
termination_by structural mq => mq

def Query.atoms : Query → List String
  | ⟨current, rest, preamble, aggregate⟩ =>
    (aggregate.map Aggregate.atoms).getD [] ++
      preamble.items.flatMap (fun (k, v) => [k, toJsStr v]) ++
      Part.atoms current ++ Part.atomsList rest
termination_by structural q => q

def Part.atomsList : List Part → List String
  | [] => []
  | p :: ps => Part.atoms p ++ Part.atomsList ps
termination_by structural ps => ps

def Part.atoms : Part → List String
  | ⟨term, tag, withClause, sort, _, navigation⟩ =>
    term.atoms ++ WithClause.atomsOpt withClause ++ tag.toList ++
      sort.flatMap (fun a => [a.name, a.order]) ++ navigation.toList.map Navigation.edgeType
termination_by structural p => p

def WithClause.atoms : WithClause → List String
  | ⟨withFilter, navigation, term, withClause⟩ =>
    withFilter.op :: navigation.edgeType :: Term.atomsOpt term ++ WithClause.atomsOpt withClause
termination_by structural w => w

def WithClause.atomsOpt : Option WithClause → List String
  | some w => WithClause.atoms w
  | none => []
termination_by structural w => w

end

end Atoms

/-! ## The text is balanced -/

/-- Every one of `l` is balanced. -/
def AllBalanced (l : List String) : Prop := ∀ a ∈ l, Balanced a

instance : DecidablePred AllBalanced := fun l => inferInstanceAs (Decidable (∀ a ∈ l, Balanced a))

theorem AllBalanced.append {l₁ l₂ : List String} (h : AllBalanced (l₁ ++ l₂)) :
    AllBalanced l₁ ∧ AllBalanced l₂ :=
  List.forall_mem_append.mp h

theorem AllBalanced.cons {a : String} {l : List String} (h : AllBalanced (a :: l)) :
    Balanced a ∧ AllBalanced l :=
  List.forall_mem_cons.mp h

theorem AllBalanced.flatMap {α : Type} {f : α → List String} {l : List α}
    (h : AllBalanced (l.flatMap f)) {x : α} (hx : x ∈ l) : AllBalanced (f x) :=
  fun a ha => h a (List.mem_flatMap.mpr ⟨x, hx, ha⟩)

theorem balanced_join (l : List String) : ∀ {acc : String}, Balanced acc → AllBalanced l →
    Balanced (l.foldl (· ++ ·) acc) := by
  induction l with
  | nil => exact fun hacc _ => hacc
  | cons a l ih => exact fun hacc h => ih (hacc.append h.cons.1) h.cons.2

theorem Balanced.ite {c : Prop} [Decidable c] {a b : String} (ha : Balanced a) (hb : Balanced b) :
    Balanced (if c then a else b) := by
  split
  · exact ha
  · exact hb

theorem Navigation.balanced_str (n : Navigation) (h : Balanced n.edgeType) : Balanced n.str := by
  have hdepth : Balanced (if n.start = n.until then (if n.start = 1 then "" else
      "[" ++ toString n.start ++ "]") else
      "[" ++ toString n.start ++ ":" ++ (if n.until = Navigation.Max then "" else toString n.until) ++
        "]") :=
    .ite (.ite rfl (Reads.close rfl (balanced_toString_int _) rfl))
      (Reads.lit (Reads.bal (Reads.bal (Reads.bal rfl (balanced_toString_int _)) rfl)
        (.ite rfl (balanced_toString_int _))) rfl)
  unfold Navigation.str
  dsimp only
  exact .ite (Balanced.append (Balanced.append rfl (.ite hdepth (h.append hdepth))) rfl)
    (.ite (Balanced.append (Balanced.append rfl (.ite hdepth (h.append hdepth))) rfl)
      (Balanced.append (Balanced.append rfl (.ite hdepth (h.append hdepth))) rfl))

theorem WithClauseFilter.balanced_str (f : WithClauseFilter) (h : Balanced f.op) : Balanced f.str :=
  .ite rfl (.ite rfl (Balanced.append (Balanced.append rfl h) (balanced_toString_int _)))

theorem balanced_getD {o : Option String} (h : AllBalanced o.toList) : Balanced (o.getD "") := by
  cases o with
  | none => rfl
  | some a => exact h a (List.mem_singleton_self a)

theorem balanced_asStr {asName : Option String} (h : AllBalanced asName.toList) :
    Balanced (asStr asName) :=
  .ite (Balanced.append rfl (balanced_getD h)) rfl

theorem AggregateVariable.balanced_str (v : AggregateVariable) (h : AllBalanced v.atoms) :
    Balanced v.str := by
  obtain ⟨hname, has⟩ := AllBalanced.append h
  refine Balanced.append ?_ (balanced_asStr has)
  obtain ⟨name | c, asName⟩ := v
  · exact hname.cons.1
  · refine Balanced.append (Balanced.append rfl (balanced_join _ rfl fun a ha => ?_)) rfl
    obtain ⟨p, hp, rfl⟩ := List.mem_map.mp ha
    rcases p with s | n
    · exact hname s (List.mem_map_of_mem _ hp)
    · exact Reads.close rfl (hname n.name (List.mem_map_of_mem _ hp)) rfl

theorem AggregateFunction.balanced_str (f : AggregateFunction) (h : AllBalanced f.atoms) :
    Balanced f.str := by
  obtain ⟨h₁, has⟩ := AllBalanced.append h
  obtain ⟨h₂, hops⟩ := AllBalanced.append h₁
  obtain ⟨hfn, hname⟩ := AllBalanced.cons h₂
  have hnameStr : Balanced f.nameStr := by
    obtain ⟨function, name | i, ops, asName⟩ := f
    · exact hname.cons.1
    · exact balanced_toString_int i
  have hop : ∀ x ∈ f.ops.map fun (op, value) => op ++ " " ++ toString value, Balanced x := by
    intro x hx
    obtain ⟨⟨op, value⟩, hmem, rfl⟩ := List.mem_map.mp hx
    exact Balanced.append (Balanced.append (hops op (List.mem_map_of_mem Prod.fst hmem)) rfl)
      (balanced_toString_int value)
  unfold AggregateFunction.str
  dsimp only
  exact Balanced.append (Reads.lit (Reads.bal (Reads.bal (Reads.lit hfn rfl) hnameStr)
    (.ite rfl (Balanced.append rfl (Balanced.intercalate rfl hop)))) rfl) (balanced_asStr has)

theorem Aggregate.balanced_str (a : Aggregate) (h : AllBalanced a.atoms) : Balanced a.str := by
  obtain ⟨hby, hfunc⟩ := AllBalanced.append h
  unfold Aggregate.str
  dsimp only
  refine Reads.lit (Reads.bal (Reads.bal rfl (.ite rfl (Balanced.append
    (Balanced.intercalate rfl fun s hs => ?_) rfl))) (Balanced.intercalate rfl fun s hs => ?_)) rfl
  · obtain ⟨v, hv, rfl⟩ := List.mem_map.mp hs
    exact v.balanced_str (hby.flatMap hv)
  · obtain ⟨f, hf, rfl⟩ := List.mem_map.mp hs
    exact f.balanced_str (hfunc.flatMap hf)

theorem balanced_isTermStr {kinds : List String} (h : AllBalanced kinds) :
    Balanced (isTermStr kinds) := by
  have hks : Balanced (", ".intercalate (kinds.map fun a => "\"" ++ a ++ "\"")) :=
    Balanced.intercalate rfl fun s hs => by
      obtain ⟨a, ha, rfl⟩ := List.mem_map.mp hs
      exact Balanced.append (Balanced.append rfl (h a ha)) rfl
  exact Reads.lit (Reads.bal rfl (.ite hks (Reads.close rfl hks rfl))) rfl

theorem balanced_tagStr {tag : Option String} (h : AllBalanced tag.toList) : Balanced (tagStr tag) :=
  .ite (Balanced.append rfl (balanced_getD h)) rfl

theorem balanced_sortStr {sort : List SortBy}
    (h : AllBalanced (sort.flatMap fun a => [a.name, a.order])) : Balanced (sortStr sort) :=
  .ite rfl (Balanced.append rfl (Balanced.intercalate rfl fun s hs => by
    obtain ⟨a, ha, rfl⟩ := List.mem_map.mp hs
    have ⟨hname, horder⟩ := AllBalanced.cons (h.flatMap ha)
    exact Balanced.append (Balanced.append hname rfl) horder.cons.1))

theorem balanced_limitStr (limit : Option Int) : Balanced (limitStr limit) := by
  cases limit with
  | none => rfl
  | some n => exact .ite rfl (Balanced.append rfl (balanced_toString_int n))

theorem balanced_navigationStr {navigation : Option Navigation}
    (h : AllBalanced (navigation.toList.map Navigation.edgeType)) :
    Balanced (navigationStr navigation) := by
  cases navigation with
  | none => rfl
  | some n => exact Balanced.append rfl (n.balanced_str (h _ (List.mem_singleton_self _)))

section Balance

variable (toJsStr pyStr : Json → String)

theorem balanced_predicateModifier {args : List (String × Json)}
    (h : AllBalanced (modifierAtoms pyStr args)) : Balanced (predicateModifier pyStr args) := by
  unfold predicateModifier modifierAtoms at *
  split
  · next f hf =>
    rw [hf] at h
    exact Balanced.append (h (pyStr f) (List.mem_singleton_self _)) rfl
  · rfl

theorem balanced_functionTermStr {fn propertyPath : String} {args : List Json} (hfn : Balanced fn)
    (hpath : Balanced propertyPath) (hargs : AllBalanced (args.map toJsStr)) :
    Balanced (functionTermStr toJsStr fn propertyPath args) :=
  Reads.lit (Reads.bal (Reads.bal (Reads.bal (Reads.lit hfn rfl) hpath) (.ite rfl rfl))
    (Balanced.intercalate rfl hargs)) rfl

theorem balanced_preambleStr {preamble : PyDict String Json}
    (h : AllBalanced (preamble.items.flatMap fun (k, v) => [k, toJsStr v])) :
    Balanced (preambleStr toJsStr preamble) :=
  .ite rfl (Reads.close rfl (Balanced.intercalate rfl fun s hs => by
    obtain ⟨⟨k, v⟩, hkv, rfl⟩ := List.mem_map.mp hs
    have ⟨hk, hv⟩ := AllBalanced.cons (h.flatMap hkv)
    exact Balanced.append (Balanced.append hk rfl) hv.cons.1) rfl)

mutual

/-- The text of a term is balanced when the texts it copies are. -/
theorem Term.balanced_str : ∀ t : Term, AllBalanced (t.atoms toJsStr pyStr) →
    Balanced (t.str toJsStr pyStr)
  | .allTerm, _ => rfl
  | .notTerm t, h =>
    show Balanced ("not(" ++ t.str toJsStr pyStr ++ ")") from
      Reads.close rfl (Term.balanced_str t h) rfl
  | .predicate name op value args, h => by
    have h : AllBalanced (name :: modifierAtoms pyStr args ++ [op, toJsStr value]) := h
    obtain ⟨h₁, h₂⟩ := AllBalanced.append h
    show Balanced (name ++ " " ++ predicateModifier pyStr args ++ op ++ " " ++ toJsStr value)
    exact Balanced.append (Balanced.append (Balanced.append (Balanced.append
      (Balanced.append h₁.cons.1 rfl) (balanced_predicateModifier pyStr h₁.cons.2)) h₂.cons.1) rfl)
      h₂.cons.2.cons.1
  | .combinedTerm left op right, h => by
    have h : AllBalanced (left.atoms toJsStr pyStr ++ op :: right.atoms toJsStr pyStr) := h
    obtain ⟨hl, hr⟩ := AllBalanced.append h
    show Balanced ("(" ++ left.str toJsStr pyStr ++ " " ++ op ++ " " ++
      right.str toJsStr pyStr ++ ")")
    exact Reads.lit (Reads.bal (Reads.bal (Reads.bal (Reads.bal (Reads.bal rfl
      (Term.balanced_str left hl)) rfl) hr.cons.1) rfl) (Term.balanced_str right hr.cons.2)) rfl
  | .idTerm id, h =>
    show Balanced ("id(\"" ++ id ++ "\")") from Reads.close rfl (AllBalanced.cons h).1 rfl
  | .isTerm _, h => balanced_isTermStr h
  | .functionTerm _ _ _, h =>
    balanced_functionTermStr toJsStr (AllBalanced.cons h).1 (AllBalanced.cons h).2.cons.1
      (AllBalanced.cons h).2.cons.2
  | .mergeTerm preFilter merge postFilter, h => by
    have h : AllBalanced (preFilter.atoms toJsStr pyStr ++ MergeQuery.atomsList toJsStr pyStr merge ++
      Term.atomsOpt toJsStr pyStr postFilter) := h
    obtain ⟨h₁, hpost⟩ := AllBalanced.append h
    obtain ⟨hpre, hmerge⟩ := AllBalanced.append h₁
    show Balanced (preFilter.str toJsStr pyStr ++ " \x7b" ++
      ", ".intercalate (MergeQuery.strs toJsStr pyStr merge) ++ "\x7d" ++
      Term.strOpt toJsStr pyStr postFilter)
    exact Balanced.append (Reads.lit (Reads.bal (Reads.lit (Term.balanced_str preFilter hpre) rfl)
      (Balanced.intercalate rfl (MergeQuery.balanced_strs merge hmerge))) rfl)
      (Term.balanced_strOpt postFilter hpost)
termination_by structural t => t

theorem Term.balanced_strOpt : ∀ t : Option Term, AllBalanced (Term.atomsOpt toJsStr pyStr t) →
    Balanced (Term.strOpt toJsStr pyStr t)
  | some t, h => Balanced.append (show Balanced " " from rfl) (Term.balanced_str t h)
  | none, _ => rfl
termination_by structural t => t

theorem MergeQuery.balanced_strs : ∀ mqs : List MergeQuery,
    AllBalanced (MergeQuery.atomsList toJsStr pyStr mqs) →
    AllBalanced (MergeQuery.strs toJsStr pyStr mqs)
  | [], _ => fun _ h => nomatch h
  | mq :: mqs, h =>
    List.forall_mem_cons.mpr ⟨MergeQuery.balanced_str mq (AllBalanced.append h).1,
      MergeQuery.balanced_strs mqs (AllBalanced.append h).2⟩
termination_by structural mqs => mqs

theorem MergeQuery.balanced_str : ∀ mq : MergeQuery,
    AllBalanced (MergeQuery.atoms toJsStr pyStr mq) → Balanced (MergeQuery.str toJsStr pyStr mq)
  | ⟨name, query, onlyFirst⟩, h =>
    show Balanced (name ++ (if onlyFirst then "" else "[]") ++ ": " ++ Query.str toJsStr pyStr query)
    from Balanced.append (Balanced.append (Balanced.append (AllBalanced.cons h).1 (.ite rfl rfl)) rfl)
      (Query.balanced_str query (AllBalanced.cons h).2)
termination_by structural mq => mq

theorem Query.balanced_str : ∀ q : Query, AllBalanced (Query.atoms toJsStr pyStr q) →
    Balanced (Query.str toJsStr pyStr q)
  | ⟨current, rest, preamble, aggregate⟩, h => by
    have h : AllBalanced ((aggregate.map Aggregate.atoms).getD [] ++
      preamble.items.flatMap (fun (k, v) => [k, toJsStr v]) ++
      Part.atoms toJsStr pyStr current ++ Part.atomsList toJsStr pyStr rest) := h
    obtain ⟨h₁, hrest⟩ := AllBalanced.append h
    obtain ⟨h₂, hcur⟩ := AllBalanced.append h₁
    obtain ⟨hagg, hpre⟩ := AllBalanced.append h₂
    have hparts : AllBalanced ((Part.strs toJsStr pyStr rest).reverse ++
        [Part.str toJsStr pyStr current]) := fun s hs => by
      rcases List.mem_append.mp hs with hs | hs
      · exact Part.balanced_strs rest hrest s (List.mem_reverse.mp hs)
      · rw [List.mem_singleton.mp hs]
        exact Part.balanced_str current hcur
    have haggStr : Balanced (aggregateStr aggregate) := by
      cases aggregate with
      | none => rfl
      | some a => exact a.balanced_str hagg
    show Balanced (aggregateStr aggregate ++ preambleStr toJsStr preamble ++
      (if !preamble.items.isEmpty || aggregate.isSome then ":" else "") ++
      " ".intercalate ((Part.strs toJsStr pyStr rest).reverse ++ [Part.str toJsStr pyStr current]))
    exact Balanced.append (Balanced.append (Balanced.append haggStr
      (balanced_preambleStr toJsStr hpre)) (.ite rfl rfl)) (Balanced.intercalate rfl hparts)
termination_by structural q => q

theorem Part.balanced_strs : ∀ ps : List Part, AllBalanced (Part.atomsList toJsStr pyStr ps) →
    AllBalanced (Part.strs toJsStr pyStr ps)
  | [], _ => fun _ h => nomatch h
  | p :: ps, h =>
    List.forall_mem_cons.mpr ⟨Part.balanced_str p (AllBalanced.append h).1,
      Part.balanced_strs ps (AllBalanced.append h).2⟩
termination_by structural ps => ps

theorem Part.balanced_str : ∀ p : Part, AllBalanced (Part.atoms toJsStr pyStr p) →
    Balanced (Part.str toJsStr pyStr p)
  | ⟨term, tag, withClause, sort, limit, navigation⟩, h => by
    have h : AllBalanced (term.atoms toJsStr pyStr ++ WithClause.atomsOpt toJsStr pyStr withClause ++
      tag.toList ++ sort.flatMap (fun a => [a.name, a.order]) ++
      navigation.toList.map Navigation.edgeType) := h
    obtain ⟨h₁, hnav⟩ := AllBalanced.append h
    obtain ⟨h₂, hsort⟩ := AllBalanced.append h₁
    obtain ⟨h₃, htag⟩ := AllBalanced.append h₂
    obtain ⟨hterm, hwith⟩ := AllBalanced.append h₃
    show Balanced (term.str toJsStr pyStr ++ WithClause.strOpt toJsStr pyStr withClause ++
      tagStr tag ++ sortStr sort ++ limitStr limit ++ navigationStr navigation)
    exact Balanced.append (Balanced.append (Balanced.append (Balanced.append (Balanced.append
      (Term.balanced_str term hterm) (WithClause.balanced_strOpt withClause hwith))
      (balanced_tagStr htag)) (balanced_sortStr hsort)) (balanced_limitStr limit))
      (balanced_navigationStr hnav)
termination_by structural p => p

theorem WithClause.balanced_str : ∀ w : WithClause, AllBalanced (WithClause.atoms toJsStr pyStr w) →
    Balanced (WithClause.str toJsStr pyStr w)
  | ⟨withFilter, navigation, term, withClause⟩, h => by
    have h : AllBalanced (withFilter.op :: navigation.edgeType :: Term.atomsOpt toJsStr pyStr term ++
      WithClause.atomsOpt toJsStr pyStr withClause) := h
    obtain ⟨h₁, hwith⟩ := AllBalanced.append h
    obtain ⟨hop, h₂⟩ := AllBalanced.cons h₁
    obtain ⟨hedge, hterm⟩ := AllBalanced.cons h₂
    show Balanced ("with(" ++ withFilter.str ++ ", " ++ navigation.str ++
      Term.strOpt toJsStr pyStr term ++ WithClause.strOpt toJsStr pyStr withClause ++ ")")
    exact Reads.lit (Reads.bal (Reads.bal (Reads.bal (Reads.bal (Reads.bal rfl
      (withFilter.balanced_str hop)) rfl) (navigation.balanced_str hedge))
      (Term.balanced_strOpt term hterm)) (WithClause.balanced_strOpt withClause hwith)) rfl
termination_by structural w => w

theorem WithClause.balanced_strOpt : ∀ w : Option WithClause,
    AllBalanced (WithClause.atomsOpt toJsStr pyStr w) → Balanced (WithClause.strOpt toJsStr pyStr w)
  | some w, h => Balanced.append (show Balanced " " from rfl) (WithClause.balanced_str w h)
  | none, _ => rfl
termination_by structural w => w

end

/-- The text of a query closes every bracket it opens, in order, and no other, whenever the
texts it copies verbatim do. -/
theorem Query.str_balanced (q : Query) (h : AllBalanced (q.atoms toJsStr pyStr)) :
    Balanced (q.str toJsStr pyStr) :=
  Query.balanced_str toJsStr pyStr q h

end Balance

/-- Instances and volumes older than three, those with any successor, sorted by name, at most
ten of them, summed by kind. -/
def describedQuery : Query :=
  let withAge : WithClause :=
    ⟨⟨">", 0⟩, {}, some (.predicate "reported.age" ">" (.num 3) []), none⟩
  { current :=
      { term := .isTerm ["instance", "volume"], withClause := some withAge,
        sort := [⟨"reported.name", SortOrder.Asc⟩], limit := some 10 }
    aggregate := some ⟨[⟨.inl ⟨"kind"⟩, none⟩], [⟨"sum", .inr 1, [], some "count"⟩]⟩ }

theorem Query.str_balanced_describedQuery :
    AllBalanced (describedQuery.atoms (fun _ => "3") (fun _ => "any")) ∧
      Balanced (describedQuery.str (fun _ => "3") (fun _ => "any")) :=
  ⟨by decide, Query.str_balanced _ _ describedQuery (by decide)⟩

example : describedQuery.str (fun _ => "3") (fun _ => "any") =
    "aggregate(kind: sum(1) as count):is([\"instance\", \"volume\"]) " ++
      "with(any, --> reported.age > 3) sort reported.name asc limit 10" := by
  decide

/-! ## `with_limit(0)` is lost in the text -/

theorem intercalate_go_append (sep y : String) :
    ∀ (l : List String) (acc : String),
      String.intercalate.go acc sep (l ++ [y]) = String.intercalate.go acc sep l ++ sep ++ y
  | [], _ => rfl
  | a :: l, acc => intercalate_go_append sep y l (acc ++ sep ++ a)

/-- `sep.join(l + [y])` ends in `y` after a text that does not depend on `y`. -/
theorem exists_intercalate_append (sep : String) :
    ∀ l : List String, ∃ A, ∀ y, sep.intercalate (l ++ [y]) = A ++ y
  | [] => ⟨"", fun y => (String.empty_append y).symm⟩
  | a :: l => ⟨sep.intercalate (a :: l) ++ sep, fun y => intercalate_go_append sep y l a⟩

section Limit

variable (toJsStr pyStr : Json → String)

/-- The text of a query ends in the text of its current part, after a text that does not
depend on that part. -/
theorem Query.exists_str_current (q : Query) :
    ∃ A, ∀ p, Query.str toJsStr pyStr { q with current := p } = A ++ Part.str toJsStr pyStr p := by
  obtain ⟨A, hA⟩ := exists_intercalate_append " " (Part.strs toJsStr pyStr q.rest).reverse
  refine ⟨aggregateStr q.aggregate ++ preambleStr toJsStr q.preamble ++
    (if !q.preamble.items.isEmpty || q.aggregate.isSome then ":" else "") ++ A, fun p => ?_⟩
  show _ ++ " ".intercalate ((Part.strs toJsStr pyStr q.rest).reverse ++ [Part.str toJsStr pyStr p]) = _
  simp only [hA, String.append_assoc]

/-- The limit of a part is printed between texts that do not depend on it. -/
theorem Part.exists_str_limit (p : Part) :
    ∃ B C, ∀ limit, Part.str toJsStr pyStr { p with limit := limit } = B ++ limitStr limit ++ C :=
  ⟨p.term.str toJsStr pyStr ++ WithClause.strOpt toJsStr pyStr p.withClause ++ tagStr p.tag ++
    sortStr p.sort, navigationStr p.navigation, fun _ => rfl⟩

end Limit

/-- Setting the limit of the current part changes that part only. -/
theorem changeCurrentPart_limit (q : Query) : ∃ (q' : Query) (p : Part), ∀ limit,
    q.changeCurrentPart (fun p => { p with limit := limit }) = { q' with current := { p with limit := limit } } := by
  unfold Query.changeCurrentPart
  split
  · exact ⟨{ q with rest := q.parts }, { term := .allTerm }, fun _ => rfl⟩
  · exact ⟨q, q.current, fun _ => rfl⟩

/-- `with_limit(0)` prints as the query without a limit: `if self.limit` is false for `0`.
Every other limit shows in the text. -/
theorem str_withLimit (toJsStr pyStr : Json → String) (q : Query) :
    (q.withLimit 0).str toJsStr pyStr =
      (q.changeCurrentPart fun p => { p with limit := none }).str toJsStr pyStr ∧
    ∀ n, n ≠ 0 → (q.withLimit n).str toJsStr pyStr ≠ (q.withLimit 0).str toJsStr pyStr := by
  obtain ⟨q', p, hq⟩ := changeCurrentPart_limit q
  obtain ⟨A, hA⟩ := Query.exists_str_current toJsStr pyStr q'
  obtain ⟨B, C, hB⟩ := Part.exists_str_limit toJsStr pyStr p
  have hstr : ∀ limit, (q.changeCurrentPart fun p => { p with limit := limit }).str toJsStr pyStr =
      A ++ (B ++ limitStr limit ++ C) := fun limit => by rw [hq, hA, hB]
  refine ⟨(hstr (some 0)).trans (hstr none).symm, fun n hn heq => ?_⟩
  have hlen := congrArg String.length ((hstr (some n)).symm.trans (heq.trans (hstr (some 0))))
  have hlimit : limitStr (some n) = " limit " ++ toString n := if_neg hn
  rw [hlimit] at hlen
  simp only [String.length_append] at hlen
  have : " limit ".length = 7 := rfl
  have : (limitStr (some 0)).length = 0 := rfl
  omega

end Resoto
