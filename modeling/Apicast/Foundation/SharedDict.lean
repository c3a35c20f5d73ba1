import Mathlib.Data.List.AList
import Mathlib.Algebra.BigOperators.Group.List.Basic

/-!
# A shared dictionary with atomic operations

Finite maps with the operations of an in-memory store shared by many workers:
each operation is one atomic step that returns the next dictionary together with
its answer. Expiry and eviction are not part of this library. The total of a
weight over the entries tells how each operation moves what is stored.
-/

namespace Foundation

/-- A finite map from keys to stored values. -/
abbrev SharedDict (Key Value : Type*) := AList fun _ : Key => Value

/-- The ways in which a store refuses an operation. -/
inductive StoreError
  | exists
  | noMemory
  | notFound
  deriving DecidableEq, Repr

namespace SharedDict

variable {Key Value : Type*} [DecidableEq Key]

/-- The stored value, if any. -/
def get (dict : SharedDict Key Value) (key : Key) : Option Value := dict.lookup key

/-- Store a value unconditionally. -/
def set (dict : SharedDict Key Value) (key : Key) (value : Value) : SharedDict Key Value :=
  dict.insert key value

/-- Remove a key. -/
def delete (dict : SharedDict Key Value) (key : Key) : SharedDict Key Value := dict.erase key

/-- Store a value only when the key is absent. -/
def add (dict : SharedDict Key Value) (key : Key) (value : Value) :
    SharedDict Key Value × Except StoreError Unit :=
  match dict.get key with
  | some _ => (dict, .error .exists)
  | none => (dict.set key value, .ok ())

/-- Add to a stored value. An absent key starts from `init` when one is given
and is refused otherwise. -/
def incr [Add Value] (dict : SharedDict Key Value) (key : Key) (delta : Value)
    (init : Option Value) : SharedDict Key Value × Except StoreError Value :=
  match dict.get key, init with
  | some value, _ => (dict.set key (value + delta), .ok (value + delta))
  | none, some start => (dict.set key (start + delta), .ok (start + delta))
  | none, none => (dict, .error .notFound)

variable (dict : SharedDict Key Value) (key other : Key) (value : Value)

@[simp] theorem get_empty : get (∅ : SharedDict Key Value) key = none := AList.lookup_empty key

@[simp] theorem get_set_self : (dict.set key value).get key = some value := AList.lookup_insert dict

theorem get_set_of_ne {key other : Key} (different : other ≠ key) :
    (dict.set key value).get other = dict.get other := AList.lookup_insert_ne different

@[simp] theorem get_delete_self : (dict.delete key).get key = none := AList.lookup_erase key dict

theorem get_delete_of_ne {key other : Key} (different : other ≠ key) :
    (dict.delete key).get other = dict.get other := AList.lookup_erase_ne different

@[simp] theorem set_set (later : Value) : (dict.set key value).set key later = dict.set key later :=
  AList.insert_insert dict

theorem get_set :
    (dict.set key value).get other = if other = key then some value else dict.get other := by
  by_cases same : other = key
  · subst same
    simp only [get_set_self, ↓reduceIte]
  · simp only [same, ↓reduceIte, get_set_of_ne dict value same]

theorem get_delete :
    (dict.delete key).get other = if other = key then none else dict.get other := by
  by_cases same : other = key
  · subst same
    simp only [get_delete_self, ↓reduceIte]
  · simp only [same, ↓reduceIte, get_delete_of_ne dict same]

variable {dict key value}

/-- Adding to an absent key stores the value. -/
theorem add_of_get_eq_none (absent : dict.get key = none) :
    dict.add key value = (dict.set key value, .ok ()) := by
  unfold add
  rw [absent]

/-- Adding to a present key is refused and changes nothing. -/
theorem add_of_get_eq_some {stored : Value} (present : dict.get key = some stored) :
    dict.add key value = (dict, .error .exists) := by
  unfold add
  rw [present]

/-- Incrementing a present key adds to it whether or not a start is given. -/
theorem incr_of_get_eq_some [Add Value] {stored delta : Value} (init : Option Value)
    (present : dict.get key = some stored) :
    dict.incr key delta init = (dict.set key (stored + delta), .ok (stored + delta)) := by
  unfold incr
  rw [present]

/-- An operation on one key leaves every other key alone. -/
theorem get_incr_of_ne [Add Value] {delta : Value} {init : Option Value} {other : Key}
    (different : other ≠ key) : (dict.incr key delta init).1.get other = dict.get other := by
  unfold incr
  cases dict.get key with
  | some stored => exact get_set_of_ne dict _ different
  | none =>
      cases init with
      | some start => exact get_set_of_ne dict _ different
      | none => rfl

section Total

variable {Weight : Type*} [AddCommMonoid Weight] (weight : Key → Value → Weight)

/-- The sum of a weight over all entries. -/
def total (dict : SharedDict Key Value) : Weight :=
  (dict.entries.map fun entry => weight entry.1 entry.2).sum

omit [DecidableEq Key] in
@[simp] theorem total_empty : total weight (∅ : SharedDict Key Value) = 0 := rfl

private theorem sum_kerase {entries : List (Sigma fun _ : Key => Value)} {key : Key}
    {stored : Value} (found : entries.dlookup key = some stored) :
    ((entries.kerase key).map fun entry => weight entry.1 entry.2).sum + weight key stored =
      (entries.map fun entry => weight entry.1 entry.2).sum := by
  induction entries with
  | nil => simp only [List.dlookup_nil, reduceCtorEq] at found
  | cons entry rest ih =>
      obtain ⟨head, current⟩ := entry
      by_cases same : key = head
      · subst same
        rw [List.dlookup_cons_eq, Option.some.injEq] at found
        subst found
        have erased : List.kerase key (⟨key, current⟩ :: rest) = rest := List.kerase_cons_eq rfl
        rw [erased, List.map_cons, List.sum_cons, add_comm]
      · rw [List.dlookup_cons_ne _ _ same] at found
        have erased : List.kerase key (⟨head, current⟩ :: rest) =
            ⟨head, current⟩ :: List.kerase key rest := List.kerase_cons_ne same
        rw [erased, List.map_cons, List.map_cons, List.sum_cons, List.sum_cons, add_assoc,
          ih found]

/-- Deleting an entry removes its weight. -/
theorem total_delete {stored : Value} (present : dict.get key = some stored) :
    total weight (dict.delete key) + weight key stored = total weight dict :=
  sum_kerase weight present

/-- Setting an absent key adds the weight of the new entry. -/
theorem total_set_of_get_eq_none (absent : dict.get key = none) :
    total weight (dict.set key value) = total weight dict + weight key value := by
  unfold total set
  rw [AList.entries_insert_of_notMem (AList.lookup_eq_none.mp absent), List.map_cons,
    List.sum_cons, add_comm]

/-- Overwriting a present key exchanges the weights of its old and new value. -/
theorem total_set_of_get_eq_some {stored : Value} (present : dict.get key = some stored) :
    total weight (dict.set key value) + weight key stored =
      total weight dict + weight key value := by
  rw [← total_delete weight present]
  unfold total set delete
  rw [AList.entries_insert, List.map_cons, List.sum_cons]
  change weight key value + total weight (dict.delete key) + weight key stored =
    total weight (dict.delete key) + weight key stored + weight key value
  rw [add_comm (weight key value), add_right_comm]

/-- A dictionary of weightless entries weighs nothing. -/
theorem total_eq_zero (weightless : ∀ key value, dict.get key = some value → weight key value = 0) :
    total weight dict = 0 := by
  apply List.sum_eq_zero
  intro share member
  obtain ⟨entry, listed, rfl⟩ := List.mem_map.mp member
  apply weightless
  exact AList.mem_lookup_iff.mpr listed

/-- A weight that only counts one key weighs the entry of that key. -/
theorem total_single (counted : Key) (share : Value → Weight) :
    total (fun key value => if key = counted then share value else 0) dict =
      ((dict.get counted).map share).getD 0 := by
  cases found : dict.get counted with
  | none =>
      apply total_eq_zero
      intro key value present
      apply if_neg
      intro same
      rw [same, found] at present
      cases present
  | some value =>
      have removed : total (fun key value => if key = counted then share value else 0)
          (dict.delete counted) = 0 := by
        apply total_eq_zero
        intro key value present
        apply if_neg
        intro same
        rw [same, get_delete_self] at present
        cases present
      rw [← total_delete _ found, removed, zero_add, if_pos rfl]
      rfl

end Total

section Pairs

/-- The entries, as pairs of a key and its value, in some order. -/
def pairs (dict : SharedDict Key Value) : List (Key × Value) :=
  dict.entries.map fun entry => (entry.1, entry.2)

theorem mem_pairs : (key, value) ∈ dict.pairs ↔ dict.get key = some value := by
  unfold pairs
  rw [List.mem_map]
  constructor
  · intro ⟨entry, listed, same⟩
    obtain ⟨rfl, rfl⟩ := Prod.mk.inj same
    exact AList.mem_lookup_iff.mpr listed
  · intro present
    exact ⟨⟨key, value⟩, AList.mem_lookup_iff.mp present, rfl⟩

omit [DecidableEq Key] in
/-- A sum over the pairs is the total of the same weight. -/
theorem sum_pairs {Weight : Type*} [AddCommMonoid Weight] (weight : Key → Value → Weight) :
    (dict.pairs.map fun pair => weight pair.1 pair.2).sum = total weight dict := by
  unfold pairs total
  rw [List.map_map]
  rfl

omit [DecidableEq Key] in
/-- Going through the pairs comes to every key once. -/
theorem nodup_pairs : (dict.pairs.map Prod.fst).Nodup := by
  have keys : dict.pairs.map Prod.fst = dict.entries.keys := by
    unfold pairs
    rw [List.map_map]
    rfl
  rw [keys]
  exact AList.keys_nodup dict

end Pairs

section Writes

variable {Key Value : Type*} [DecidableEq Key] (dict : SharedDict Key Value)
  {writes : List (Key × Value)} {key : Key} {value : Value}

/-- One assignment after the other. -/
def setAll (dict : SharedDict Key Value) (writes : List (Key × Value)) : SharedDict Key Value :=
  writes.foldl (fun dict write => dict.set write.1 write.2) dict

theorem setAll_cons (write : Key × Value) :
    dict.setAll (write :: writes) = (dict.set write.1 write.2).setAll writes := rfl

theorem setAll_append (later : List (Key × Value)) :
    dict.setAll (writes ++ later) = (dict.setAll writes).setAll later := List.foldl_append

/-- Assignments to distinct keys of an empty table are all there is in it. -/
theorem get_setAll_empty (distinct : (writes.map Prod.fst).Nodup) :
    (setAll ∅ writes).get key = some value ↔ (key, value) ∈ writes := by
  suffices general : ∀ dict : SharedDict Key Value, (∀ write ∈ writes, dict.get write.1 = none) →
      ((dict.setAll writes).get key = some value ↔
        dict.get key = some value ∨ (key, value) ∈ writes) by
    rw [general ∅ fun _ _ => get_empty _, get_empty]
    exact ⟨fun found => found.resolve_left nofun, Or.inr⟩
  induction writes with
  | nil => exact fun dict _ => ⟨Or.inl, fun found => found.resolve_right nofun⟩
  | cons write writes ih =>
      intro dict absent
      rw [List.map_cons, List.nodup_cons] at distinct
      have others : ∀ other ∈ writes, (dict.set write.1 write.2).get other.1 = none := by
        intro other member
        have different : other.1 ≠ write.1 := by
          intro same
          exact distinct.1 (same ▸ List.mem_map_of_mem member)
        rw [get_set_of_ne _ _ different]
        exact absent other (List.mem_cons_of_mem _ member)
      rw [setAll_cons, ih distinct.2 _ others, get_set, List.mem_cons]
      by_cases same : key = write.1
      · have unset : dict.get key = none := same ▸ absent write List.mem_cons_self
        have unwritten : (key, value) ∉ writes := fun member =>
          distinct.1 (same ▸ List.mem_map_of_mem member)
        rw [if_pos same, unset, Option.some.injEq]
        constructor
        · intro found
          rcases found with stored | member
          · exact Or.inr (Or.inl (Prod.ext same stored.symm))
          · exact absurd member unwritten
        · intro found
          rcases found with absent | here | member
          · cases absent
          · exact Or.inl (congrArg Prod.snd here).symm
          · exact absurd member unwritten
      · have elsewhere : (key, value) ≠ write := fun here => same (congrArg Prod.fst here)
        rw [if_neg same]
        exact or_congr_right ⟨Or.inr, fun found => found.resolve_left elsewhere⟩

end Writes

end SharedDict

end Foundation
