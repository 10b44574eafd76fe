import Resoto.Python.Basic
import Mathlib.Data.List.Nodup

/-!
# Python dictionaries

A `dict` keeps its items in insertion order and each key once: `PyDict` carries the
second fact as a field, so a dictionary with a repeated key cannot be built. `d[k] = v`
keeps a present key where it is and appends a new one; `d.pop(k)` removes it; a dict
comprehension is a left fold of `d[k] = v`, so of two items with one key the later wins.
-/

namespace Resoto

/-! ## Item lists -/

section Items

variable {K V : Type} [DecidableEq K]

/-- The value stored under `k`. -/
def findValue (k : K) : List (K × V) → Option V
  | [] => none
  | (k', v) :: es => if k' = k then some v else findValue k es

/-- `d[k] = v` on the items. -/
def upsert (k : K) (v : V) : List (K × V) → List (K × V)
  | [] => [(k, v)]
  | (k', v') :: es => if k' = k then (k, v) :: es else (k', v') :: upsert k v es

@[simp] theorem findValue_nil (k : K) : findValue k ([] : List (K × V)) = none := rfl

theorem findValue_cons (k k' : K) (v : V) (es : List (K × V)) :
    findValue k ((k', v) :: es) = if k' = k then some v else findValue k es := rfl

theorem findValue_append (k : K) (es fs : List (K × V)) :
    findValue k (es ++ fs) = (findValue k es).or (findValue k fs) := by
  induction es with
  | nil => rfl
  | cons e es ih => obtain ⟨k', v⟩ := e; by_cases h : k' = k <;> simp [findValue_cons, h, ih]

theorem findValue_map_snd {W : Type} (f : V → W) (k : K) (es : List (K × V)) :
    findValue k (es.map fun e => (e.1, f e.2)) = (findValue k es).map f := by
  induction es with
  | nil => rfl
  | cons e es ih => obtain ⟨k', v⟩ := e; by_cases h : k' = k <;> simp [findValue_cons, h, ih]

theorem findValue_eq_none {k : K} {es : List (K × V)} :
    findValue k es = none ↔ k ∉ es.map Prod.fst := by
  induction es with
  | nil => simp
  | cons e es ih =>
    obtain ⟨k', v⟩ := e
    by_cases h : k' = k
    · simp [findValue_cons, h]
    · simp [findValue_cons, h, ih, Ne.symm h]

theorem findValue_mem {k : K} {v : V} {es : List (K × V)} (h : findValue k es = some v) :
    (k, v) ∈ es := by
  induction es with
  | nil => simp at h
  | cons e es ih =>
    obtain ⟨k', v'⟩ := e
    by_cases hk : k' = k
    · simp_all [findValue_cons]
    · simp only [findValue_cons, hk, if_false] at h
      exact List.mem_cons_of_mem _ (ih h)

theorem findValue_of_mem {k : K} {v : V} {es : List (K × V)} (hn : (es.map Prod.fst).Nodup)
    (h : (k, v) ∈ es) : findValue k es = some v := by
  induction es with
  | nil => simp at h
  | cons e es ih =>
    obtain ⟨k', v'⟩ := e
    simp only [List.map_cons, List.nodup_cons] at hn
    rcases List.mem_cons.mp h with h | h
    · cases h; simp [findValue_cons]
    · have hk : k' ≠ k := fun e => hn.1 (e ▸ List.mem_map_of_mem Prod.fst h)
      simp [findValue_cons, hk, ih hn.2 h]

/-- With each key once, the value under a key does not depend on the order of the items. -/
theorem findValue_perm {es fs : List (K × V)} (hn : (es.map Prod.fst).Nodup) (hp : es.Perm fs)
    (k : K) : findValue k es = findValue k fs := by
  have hn' : (fs.map Prod.fst).Nodup := (hp.map Prod.fst).nodup_iff.mp hn
  cases h : findValue k es with
  | none =>
    rw [eq_comm, findValue_eq_none, ← (hp.map Prod.fst).mem_iff]
    exact findValue_eq_none.mp h
  | some v => exact (findValue_of_mem hn' (hp.subset (findValue_mem h))).symm

theorem findValue_upsert (k k' : K) (v : V) (es : List (K × V)) :
    findValue k' (upsert k v es) = if k = k' then some v else findValue k' es := by
  induction es with
  | nil => rfl
  | cons e es ih =>
    obtain ⟨j, w⟩ := e
    by_cases hj : j = k
    · subst hj; simp only [upsert, if_true, findValue_cons]; by_cases j = k' <;> simp [*]
    · simp only [upsert, hj, if_false, findValue_cons, ih]
      by_cases hk : k = k' <;> by_cases j = k' <;> simp_all

theorem mem_upsert {k : K} {v : V} {e : K × V} {es : List (K × V)} (h : e ∈ upsert k v es) :
    e = (k, v) ∨ e ∈ es := by
  induction es with
  | nil => simpa [upsert] using h
  | cons e' es ih =>
    obtain ⟨j, w⟩ := e'
    by_cases hj : j = k
    · simp only [upsert, hj, if_true, List.mem_cons] at h ⊢
      exact h.imp_right .inr
    · simp only [upsert, hj, if_false, List.mem_cons] at h ⊢
      rcases h with h | h
      · exact .inr (.inl h)
      · rcases ih h with h | h <;> simp [h]

theorem mem_keys_upsert (k k' : K) (v : V) (es : List (K × V)) :
    k' ∈ (upsert k v es).map Prod.fst ↔ k' = k ∨ k' ∈ es.map Prod.fst := by
  induction es with
  | nil => simp [upsert]
  | cons e es ih =>
    obtain ⟨j, w⟩ := e
    by_cases hj : j = k
    · subst hj; simp [upsert]
    · simp only [upsert, hj, if_false, List.map_cons, List.mem_cons, ih]
      exact or_left_comm

theorem nodup_upsert (k : K) (v : V) {es : List (K × V)} (hn : (es.map Prod.fst).Nodup) :
    ((upsert k v es).map Prod.fst).Nodup := by
  induction es with
  | nil => simp [upsert]
  | cons e es ih =>
    obtain ⟨j, w⟩ := e
    simp only [List.map_cons, List.nodup_cons] at hn
    by_cases hj : j = k
    · subst hj
      rw [upsert, if_pos rfl]
      exact List.nodup_cons.mpr hn
    · simp only [upsert, hj, if_false, List.map_cons, List.nodup_cons, mem_keys_upsert]
      exact ⟨not_or.mpr ⟨not_false, hn.1⟩, ih hn.2⟩

/-- A new key goes to the end. -/
theorem upsert_of_not_mem {k : K} {v : V} {es : List (K × V)} (h : k ∉ es.map Prod.fst) :
    upsert k v es = es ++ [(k, v)] := by
  induction es with
  | nil => rfl
  | cons e es ih =>
    obtain ⟨j, w⟩ := e
    simp only [List.map_cons, List.mem_cons, not_or] at h
    simp only [upsert, Ne.symm h.1, if_false, ih h.2, List.cons_append]

/-- Writing an item the list already holds changes nothing. -/
theorem upsert_of_mem {k : K} {v : V} {es : List (K × V)} (hn : (es.map Prod.fst).Nodup)
    (h : (k, v) ∈ es) : upsert k v es = es := by
  induction es with
  | nil => cases h
  | cons e es ih =>
    obtain ⟨j, w⟩ := e
    simp only [List.map_cons, List.nodup_cons] at hn
    rcases List.mem_cons.mp h with h | h
    · cases h
      simp [upsert]
    · have hj : j ≠ k := fun hj => hn.1 (hj ▸ List.mem_map_of_mem Prod.fst h)
      simp only [upsert, hj, if_false, ih hn.2 h]

theorem upsert_upsert (k : K) (v w : V) (es : List (K × V)) :
    upsert k v (upsert k w es) = upsert k v es := by
  induction es with
  | nil => simp [upsert]
  | cons e es ih =>
    obtain ⟨j, x⟩ := e
    by_cases hj : j = k
    · simp [upsert, hj]
    · simp only [upsert, hj, if_false, ih]

/-- Writes of two keys commute once the second is present. -/
theorem upsert_comm {j k : K} (x v : V) {es : List (K × V)} (hk : k ∈ es.map Prod.fst)
    (hjk : j ≠ k) : upsert k v (upsert j x es) = upsert j x (upsert k v es) := by
  induction es with
  | nil => cases hk
  | cons e es ih =>
    obtain ⟨i, y⟩ := e
    by_cases hi : i = j
    · subst hi
      simp [upsert, hjk]
    · by_cases hik : i = k
      · subst hik
        simp [upsert, hi]
      · have hk' : k ∈ es.map Prod.fst := (List.mem_cons.mp hk).resolve_left (Ne.symm hik)
        simp only [upsert, hi, hik, if_false, ih hk']

/-- `d[k] = v` for each item in turn. -/
def upsertAll (es xs : List (K × V)) : List (K × V) := xs.foldl (fun es e => upsert e.1 e.2 es) es

@[simp] theorem upsertAll_nil (es : List (K × V)) : upsertAll es [] = es := rfl

@[simp] theorem upsertAll_cons (es : List (K × V)) (x : K × V) (xs : List (K × V)) :
    upsertAll es (x :: xs) = upsertAll (upsert x.1 x.2 es) xs := rfl

theorem upsert_upsertAll {k : K} (v : V) (xs : List (K × V)) (hx : k ∉ xs.map Prod.fst) :
    ∀ {es : List (K × V)}, k ∈ es.map Prod.fst →
      upsert k v (upsertAll es xs) = upsertAll (upsert k v es) xs := by
  induction xs with
  | nil => exact fun _ => rfl
  | cons e xs ih =>
    intro es hk
    simp only [List.map_cons, List.mem_cons, not_or] at hx
    have hk' : k ∈ (upsert e.1 e.2 es).map Prod.fst := (mem_keys_upsert _ _ _ _).mpr (.inr hk)
    rw [upsertAll_cons, upsertAll_cons, ih hx.2 hk', upsert_comm _ _ hk (Ne.symm hx.1)]

/-- Writing the items of a dict after `d[k] = v` is writing them and then `d[k] = v`. -/
theorem upsertAll_upsert {k : K} (v : V) {xs : List (K × V)} (hn : (xs.map Prod.fst).Nodup) :
    ∀ es, upsertAll es (upsert k v xs) = upsert k v (upsertAll es xs) := by
  induction xs with
  | nil => exact fun _ => rfl
  | cons e xs ih =>
    obtain ⟨j, w⟩ := e
    simp only [List.map_cons, List.nodup_cons] at hn
    intro es
    by_cases hj : j = k
    · subst hj
      simp only [upsert, if_true, upsertAll_cons]
      rw [upsert_upsertAll _ _ hn.1 ((mem_keys_upsert _ _ _ _).mpr (.inl rfl)), upsert_upsert]
    · simp only [upsert, hj, if_false, upsertAll_cons, ih hn.2]

theorem upsertAll_upsertAll (es xs : List (K × V)) :
    ∀ {ys : List (K × V)}, (ys.map Prod.fst).Nodup →
      upsertAll es (upsertAll ys xs) = upsertAll (upsertAll es ys) xs := by
  induction xs with
  | nil => exact fun _ => rfl
  | cons x xs ih =>
    intro ys hn
    simp only [upsertAll_cons]
    rw [ih (nodup_upsert _ _ hn), upsertAll_upsert _ hn]

theorem upsertAll_of_subset {es : List (K × V)} (hn : (es.map Prod.fst).Nodup) :
    ∀ {xs : List (K × V)}, (∀ x ∈ xs, x ∈ es) → upsertAll es xs = es
  | [], _ => rfl
  | x :: xs, h => by
    rw [upsertAll_cons, upsert_of_mem hn (h x (List.mem_cons_self _ _)),
      upsertAll_of_subset hn fun y hy => h y (List.mem_cons_of_mem _ hy)]

theorem upsertAll_of_nodup :
    ∀ {es xs : List (K × V)}, ((es ++ xs).map Prod.fst).Nodup → upsertAll es xs = es ++ xs
  | _, [], _ => by simp
  | es, (k, v) :: xs, hn => by
    have hd := List.nodup_append.mp (List.map_append Prod.fst es ((k, v) :: xs) ▸ hn)
    rw [upsertAll_cons, upsert_of_not_mem fun h => hd.2.2 h (List.mem_cons_self k _),
      upsertAll_of_nodup (by rwa [List.append_assoc, List.singleton_append]),
      List.append_assoc, List.singleton_append]

end Items

/-! ## Dictionaries -/

/-- A Python `dict` from `K` to `V`. -/
structure PyDict (K V : Type) where
  items : List (K × V)
  nodup : (items.map Prod.fst).Nodup

namespace PyDict

variable {K V : Type} [DecidableEq K]

instance : EmptyCollection (PyDict K V) := ⟨⟨[], List.nodup_nil⟩⟩

/-- `d.keys()`. -/
def keys (d : PyDict K V) : List K := d.items.map Prod.fst

/-- `d.values()`. -/
def values (d : PyDict K V) : List V := d.items.map Prod.snd

/-- `d.get(k)`. -/
def get? (d : PyDict K V) (k : K) : Option V := findValue k d.items

/-- `d[k] = v`. -/
def insert (d : PyDict K V) (k : K) (v : V) : PyDict K V :=
  ⟨upsert k v d.items, nodup_upsert k v d.nodup⟩

/-- `d.pop(k, None)`. -/
def erase (d : PyDict K V) (k : K) : PyDict K V :=
  ⟨d.items.filter (·.1 != k), d.nodup.sublist (List.Sublist.map _ (List.filter_sublist _))⟩

/-- `{k: v for k, v in items}`. -/
def ofList (items : List (K × V)) : PyDict K V := items.foldl (fun d e => d.insert e.1 e.2) ∅

/-- `{**a, **b}`. -/
def merge (a b : PyDict K V) : PyDict K V := b.items.foldl (fun d e => d.insert e.1 e.2) a

omit [DecidableEq K] in
/-- `{k: f(v) for k, v in d.items()}`. -/
def mapValues {W : Type} (d : PyDict K V) (f : V → W) : PyDict K W :=
  ⟨d.items.map fun e => (e.1, f e.2), by simpa [Function.comp_def] using d.nodup⟩

omit [DecidableEq K] in
/-- `{k: v for k, v in d.items() if p(v)}`. -/
def filterValues (d : PyDict K V) (p : V → Bool) : PyDict K V :=
  ⟨d.items.filter (p ·.2), d.nodup.sublist (List.Sublist.map _ (List.filter_sublist _))⟩

/-- `d[k].append(x)` on a `defaultdict(list)`. -/
def appendAt (d : PyDict K (List V)) (k : K) (x : V) : PyDict K (List V) :=
  d.insert k ((d.get? k).getD [] ++ [x])

@[simp] theorem get?_empty (k : K) : (∅ : PyDict K V).get? k = none := rfl

omit [DecidableEq K] in
@[simp] theorem items_empty : (∅ : PyDict K V).items = [] := rfl

theorem get?_insert (d : PyDict K V) (k k' : K) (v : V) :
    (d.insert k v).get? k' = if k = k' then some v else d.get? k' :=
  findValue_upsert k k' v d.items

theorem mem_items_insert {d : PyDict K V} {k : K} {v : V} {e : K × V}
    (h : e ∈ (d.insert k v).items) : e = (k, v) ∨ e ∈ d.items :=
  mem_upsert h

theorem mem_values_insert {d : PyDict K V} {k : K} {v w : V} (h : w ∈ (d.insert k v).values) :
    w = v ∨ w ∈ d.values := by
  obtain ⟨e, he, rfl⟩ := List.mem_map.mp h
  rcases mem_items_insert he with rfl | he
  exacts [.inl rfl, .inr (List.mem_map_of_mem _ he)]

/-- The values of `{k: v for k, v in items}` are values of the items. -/
theorem mem_values_ofList {items : List (K × V)} {w : V} (h : w ∈ (ofList items).values) :
    w ∈ items.map Prod.snd := by
  suffices ∀ d : PyDict K V, w ∈ (items.foldl (fun d e => d.insert e.1 e.2) d).values →
      w ∈ d.values ∨ w ∈ items.map Prod.snd from (this ∅ h).resolve_left (by simp [values])
  clear h
  induction items with
  | nil => exact fun _ => .inl
  | cons e es ih =>
    intro d hw
    rcases ih _ hw with hw | hw
    · rcases mem_values_insert hw with rfl | hw
      exacts [.inr (List.mem_cons_self _ _), .inl hw]
    · exact .inr (List.mem_cons_of_mem _ hw)

theorem mem_keys_insert (d : PyDict K V) (k k' : K) (v : V) :
    k' ∈ (d.insert k v).keys ↔ k' = k ∨ k' ∈ d.keys :=
  mem_keys_upsert k k' v d.items

theorem get?_eq_none {d : PyDict K V} {k : K} : d.get? k = none ↔ k ∉ d.keys :=
  findValue_eq_none

theorem get?_erase (d : PyDict K V) (k k' : K) :
    (d.erase k).get? k' = if k = k' then none else d.get? k' := by
  simp only [get?, erase]
  induction d.items with
  | nil => simp
  | cons e es ih =>
    obtain ⟨j, w⟩ := e
    by_cases hj : j = k
    · subst hj; by_cases j = k' <;> simp_all [findValue_cons]
    · by_cases hk : k = k' <;> by_cases j = k' <;> simp_all [findValue_cons]

/-- A fold of `d[k] = v` over `items` reads, under each key, the last item's value. -/
theorem get?_foldl_insert (items : List (K × V)) (d : PyDict K V) (k : K) :
    (items.foldl (fun d e => d.insert e.1 e.2) d).get? k =
      (findValue k items.reverse).or (d.get? k) := by
  induction items generalizing d with
  | nil => simp
  | cons e es ih =>
    obtain ⟨k', v⟩ := e
    rw [List.foldl_cons, ih, get?_insert, List.reverse_cons, findValue_append]
    by_cases h : k' = k <;> cases findValue k es.reverse <;> simp [findValue_cons, h]

theorem get?_ofList (items : List (K × V)) (k : K) :
    (ofList items).get? k = findValue k items.reverse := by
  simp [ofList, get?_foldl_insert]

theorem get?_merge (a b : PyDict K V) (k : K) :
    (merge a b).get? k = (b.get? k).or (a.get? k) := by
  rw [merge, get?_foldl_insert]
  congr 1
  exact findValue_perm (by rw [List.map_reverse]; exact List.nodup_reverse.mpr b.nodup)
    (List.reverse_perm _) k

omit [DecidableEq K] in
@[ext] theorem ext {a b : PyDict K V} (h : a.items = b.items) : a = b := by
  cases a
  cases b
  cases h
  rfl

theorem items_foldl_insert (xs : List (K × V)) (d : PyDict K V) :
    (xs.foldl (fun d e => d.insert e.1 e.2) d).items = upsertAll d.items xs := by
  induction xs generalizing d with
  | nil => rfl
  | cons x xs ih => exact ih _

/-- `{**{**a, **b}, **c} == {**a, **{**b, **c}}`, item order included. -/
theorem merge_assoc (a b c : PyDict K V) : (a.merge b).merge c = a.merge (b.merge c) := by
  ext1
  simp only [merge, items_foldl_insert]
  exact (upsertAll_upsertAll _ _ b.nodup).symm

theorem merge_self (a : PyDict K V) : a.merge a = a :=
  ext (by rw [merge, items_foldl_insert, upsertAll_of_subset a.nodup fun _ => id])

@[simp] theorem empty_merge (a : PyDict K V) : (∅ : PyDict K V).merge a = a :=
  ext (by rw [merge, items_foldl_insert, items_empty, upsertAll_of_nodup a.nodup, List.nil_append])

@[simp] theorem merge_empty (a : PyDict K V) : a.merge ∅ = a := rfl

/-- `{k: v for k, v in d.items()}` is `d`. -/
theorem ofList_items (d : PyDict K V) : ofList d.items = d := empty_merge d

theorem get?_mapValues {W : Type} (d : PyDict K V) (f : V → W) (k : K) :
    (d.mapValues f).get? k = (d.get? k).map f :=
  findValue_map_snd f k d.items

theorem not_mem_keys_erase (d : PyDict K V) (k : K) : k ∉ (d.erase k).keys := fun h => by
  obtain ⟨e, he, hek⟩ := List.mem_map.mp h
  have hne : (e.1 != k) = true := (List.mem_filter.mp he).2
  rw [hek, bne_self_eq_false] at hne
  exact Bool.false_ne_true hne

/-- `d[k] = v` appends a new key. -/
theorem items_insert_of_not_mem {d : PyDict K V} {k : K} (h : k ∉ d.keys) (v : V) :
    (d.insert k v).items = d.items ++ [(k, v)] :=
  upsert_of_not_mem h

/-! ## Filtering values -/

omit [DecidableEq K] in
theorem values_filterValues (d : PyDict K V) (p : V → Bool) :
    (d.filterValues p).values = d.values.filter p := by
  rw [values, values, List.filter_map]
  rfl

theorem filterValues_erase (d : PyDict K V) (p : V → Bool) (k : K) :
    (d.erase k).filterValues p = (d.filterValues p).erase k :=
  ext (by simp only [erase, filterValues, List.filter_filter, Bool.and_comm])

/-- Filtering after `d.pop(k)` and `d[k] = v` is filtering first, then setting `k` only
when `v` passes. -/
theorem filterValues_insert_erase (d : PyDict K V) (p : V → Bool) (k : K) (v : V) :
    ((d.erase k).insert k v).filterValues p =
      if p v then ((d.filterValues p).erase k).insert k v else (d.filterValues p).erase k := by
  have hk : k ∉ ((d.filterValues p).erase k).keys := not_mem_keys_erase _ k
  ext1
  split <;> rename_i hv
  · rw [items_insert_of_not_mem hk, ← filterValues_erase]
    simp [filterValues, items_insert_of_not_mem (not_mem_keys_erase d k), hv]
  · rw [← filterValues_erase]
    simp [filterValues, items_insert_of_not_mem (not_mem_keys_erase d k), hv]

/-! ## Values keyed by themselves -/

/-- Every value of `d` sits under the key `f` gives it. -/
def KeyedBy (f : V → K) (d : PyDict K V) : Prop := ∀ e ∈ d.items, f e.2 = e.1

theorem keyedBy_foldl_insert {f : V → K} {xs : List (K × V)} (hx : ∀ e ∈ xs, f e.2 = e.1) :
    ∀ {d : PyDict K V}, d.KeyedBy f → (xs.foldl (fun d e => d.insert e.1 e.2) d).KeyedBy f := by
  induction xs with
  | nil => exact id
  | cons x xs ih =>
    intro d hd
    refine ih (fun e he => hx e (List.mem_cons_of_mem _ he)) fun e he => ?_
    rcases mem_items_insert he with rfl | he
    exacts [hx x (List.mem_cons_self _ _), hd e he]

theorem keyedBy_ofList (f : V → K) (xs : List V) : (ofList (xs.map fun x => (f x, x))).KeyedBy f :=
  keyedBy_foldl_insert (fun _ he => by obtain ⟨x, -, rfl⟩ := List.mem_map.mp he; rfl)
    (fun e h => (List.not_mem_nil e h).elim)

theorem keyedBy_merge {f : V → K} {a b : PyDict K V} (ha : a.KeyedBy f) (hb : b.KeyedBy f) :
    (a.merge b).KeyedBy f :=
  keyedBy_foldl_insert hb ha

omit [DecidableEq K] in
/-- A dict keyed by `f` is rebuilt from its values. -/
theorem map_keyed_values {f : V → K} {d : PyDict K V} (hd : d.KeyedBy f) :
    d.values.map (fun v => (f v, v)) = d.items := by
  rw [values, List.map_map]
  conv_rhs => rw [← List.map_id d.items]
  exact List.map_congr_left fun e he => Prod.ext (hd e he) rfl

omit [DecidableEq K] in
theorem map_values_keyedBy {f : V → K} {d : PyDict K V} (hd : d.KeyedBy f) :
    d.values.map f = d.keys := by
  rw [keys, ← map_keyed_values hd, List.map_map]
  rfl

theorem ofList_keyed_values {f : V → K} {d : PyDict K V} (hd : d.KeyedBy f) :
    ofList (d.values.map fun v => (f v, v)) = d := by
  rw [map_keyed_values hd, ofList_items]

/-- Merging `a` into a dict rebuilt from `a.merge b` changes nothing: `a` is there already. -/
theorem merge_ofList_merge {f : V → K} {a b : PyDict K V} (ha : a.KeyedBy f) (hb : b.KeyedBy f) :
    a.merge (ofList ((a.merge b).values.map fun v => (f v, v))) = a.merge b := by
  rw [ofList_keyed_values (keyedBy_merge ha hb), ← merge_assoc, merge_self]

omit [DecidableEq K] in
theorem keyedBy_filterValues {f : V → K} {d : PyDict K V} (hd : d.KeyedBy f) (p : V → Bool) :
    (d.filterValues p).KeyedBy f :=
  fun e he => hd e (List.mem_of_mem_filter he)

theorem keyedBy_insert {f : V → K} {d : PyDict K V} (hd : d.KeyedBy f) (v : V) :
    (d.insert (f v) v).KeyedBy f := fun e he => by
  rcases mem_items_insert he with rfl | he
  exacts [rfl, hd e he]

theorem keyedBy_erase {f : V → K} {d : PyDict K V} (hd : d.KeyedBy f) (k : K) :
    (d.erase k).KeyedBy f :=
  fun e he => hd e (List.mem_of_mem_filter he)

theorem mem_keys_erase (d : PyDict K V) (k k' : K) :
    k' ∈ (d.erase k).keys ↔ k' ≠ k ∧ k' ∈ d.keys := by
  simp only [keys, erase, List.mem_map, List.mem_filter, bne_iff_ne]
  constructor
  · rintro ⟨e, ⟨he, hne⟩, rfl⟩
    exact ⟨hne, e, he, rfl⟩
  · rintro ⟨hne, e, he, rfl⟩
    exact ⟨e, ⟨he, hne⟩, rfl⟩

theorem mem_values_erase {d : PyDict K V} {k : K} {v : V} (h : v ∈ (d.erase k).values) :
    v ∈ d.values := by
  obtain ⟨e, he, rfl⟩ := List.mem_map.mp h
  exact List.mem_map_of_mem _ (List.mem_of_mem_filter he)

/-- The keys after a loop of `d[k] = v`: the old ones and the items' keys. -/
theorem mem_keys_foldl_insert (xs : List (K × V)) (d : PyDict K V) (k : K) :
    k ∈ (xs.foldl (fun d e => d.insert e.1 e.2) d).keys ↔ k ∈ d.keys ∨ k ∈ xs.map Prod.fst := by
  induction xs generalizing d with
  | nil => simp
  | cons e es ih =>
    rw [List.foldl_cons, ih, mem_keys_insert, List.map_cons, List.mem_cons]
    exact or_assoc.trans or_left_comm

theorem mem_keys_ofList (items : List (K × V)) (k : K) :
    k ∈ (ofList items).keys ↔ k ∈ items.map Prod.fst := by
  rw [ofList, mem_keys_foldl_insert]
  simp [keys]

/-- A value of a dict keyed by `f` is the one under its key. -/
theorem mem_values_iff {f : V → K} {d : PyDict K V} (hd : d.KeyedBy f) {v : V} :
    v ∈ d.values ↔ d.get? (f v) = some v := by
  constructor
  · intro hv
    obtain ⟨e, he, rfl⟩ := List.mem_map.mp hv
    rw [hd e he]
    exact findValue_of_mem d.nodup he
  · exact fun h => List.mem_map.mpr ⟨_, findValue_mem h, rfl⟩

/-! ## `defaultdict(list)` -/

theorem get?_appendAt (d : PyDict K (List V)) (k k' : K) (x : V) :
    (d.appendAt k x).get? k' = if k = k' then some ((d.get? k).getD [] ++ [x]) else d.get? k' :=
  get?_insert d k k' _

/-- The keys after a loop of appends: the old ones and the appended ones. -/
theorem mem_keys_foldl_appendAt (xs : List (K × V)) (d : PyDict K (List V)) (k : K) :
    k ∈ (xs.foldl (fun d e => d.appendAt e.1 e.2) d).keys ↔ k ∈ d.keys ∨ k ∈ xs.map Prod.fst := by
  induction xs generalizing d with
  | nil => simp
  | cons e es ih =>
    rw [List.foldl_cons, ih, appendAt, mem_keys_insert, List.map_cons, List.mem_cons]
    exact or_assoc.trans or_left_comm

/-- The list under a key after a loop of appends: the old one, then the appended items of
that key in loop order. -/
theorem getD_get?_foldl_appendAt (xs : List (K × V)) (d : PyDict K (List V)) (k : K) :
    ((xs.foldl (fun d e => d.appendAt e.1 e.2) d).get? k).getD [] =
      (d.get? k).getD [] ++ (xs.filter (·.1 = k)).map Prod.snd := by
  induction xs generalizing d with
  | nil => simp
  | cons e es ih =>
    rw [List.foldl_cons, ih, get?_appendAt]
    by_cases h : e.1 = k
    · subst h; simp
    · simp [h]

/-- A loop of appends from `{}` groups the items by key: the list under a key holds the
values of that key's items in loop order. -/
theorem mem_items_foldl_appendAt {xs : List (K × V)} {k : K} {l : List V}
    (h : (k, l) ∈ (xs.foldl (fun d e => d.appendAt e.1 e.2) (∅ : PyDict K (List V))).items) :
    l = (xs.filter (·.1 = k)).map Prod.snd := by
  have := getD_get?_foldl_appendAt xs ∅ k
  rwa [get?, findValue_of_mem (PyDict.nodup _) h, Option.getD_some, get?_empty, Option.getD_none,
    List.nil_append] at this

end PyDict

end Resoto
