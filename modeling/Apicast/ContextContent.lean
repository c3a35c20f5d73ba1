import Mathlib.Data.Fintype.Card
import Mathlib.Data.Finset.Insert
import Apicast.Foundation.FallibleLoop
import Apicast.Foundation.Traversal

/-!
# The content of a context

`liquid_context_debug/context_content.lua`: the content of a context has the values of its list
nodes under strings and numbers, each key with the value of the first node that has one. Tables
that were seen before are not computed again. The nodes themselves are followed without a look at
what was seen, and a node whose own content was seen shows the message about it in place of its
values.
-/

namespace Apicast.ContextContent

open Foundation

universe u

/-- A Lua value other than nil. Tables are known by their identity. -/
inductive Value (Id Number : Type u)
  | boolean (value : Bool)
  | number (value : Number)
  | string (text : String)
  | table (id : Id)
  | function
  | userdata
  | thread
  | cdata
  deriving DecidableEq

/-- The fields of a table in the order of `pairs`, and what its metatable gives for names without
a field. -/
structure Table (Id Number : Type u) where
  fields : List (Value Id Number × Value Id Number)
  inherited : String → Option (Value Id Number)

inductive Key (Number : Type u)
  | number (value : Number)
  | string (text : String)
  deriving DecidableEq

/-- What the program builds of a value: it shares no tables with the value. -/
inductive Content (Number : Type u)
  | number (value : Number)
  | string (text : String)
  | table (entries : List (Key Number × Content Number))

/-- An entry of the content of a context, with the list node that it is a value of. The message
is a value of no node. The program keeps no record of this. -/
structure Found (Id Number : Type u) where
  content : Content Number
  node : Option Id

section Tables

variable {Id Number Entry : Type u} [DecidableEq Number]

/-- The assignment of a value or nil to a field. -/
def assign (key : Key Number) (value : Option Entry) (entries : List (Key Number × Entry)) :
    List (Key Number × Entry) :=
  (value.map (key, ·)).toList ++ entries.filter (·.1 ≠ key)

/-- An assigned name has the value that was assigned, and the others stay. -/
theorem mem_assign {name : Key Number} {value : Entry} {entries : List (Key Number × Entry)}
    {entry : Key Number × Entry} :
    entry ∈ assign name (some value) entries ↔
      entry = (name, value) ∨ entry ∈ entries ∧ entry.1 ≠ name := by
  unfold assign
  rw [Option.map_some, Option.toList_some, List.singleton_append, List.mem_cons, List.mem_filter,
    decide_eq_true_eq]

variable [DecidableEq Id]

def Table.index (table : Table Id Number) (name : String) : Option (Value Id Number) :=
  ((table.fields.find? (·.1 = .string name)).map Prod.snd).or (table.inherited name)

/-- The nodes of `linked_list.lua`. Both of their fields are always there, so that their metatable
is asked for other names only. -/
def linkedList (item next : Option (Value Id Number)) (emptyTable : Id)
    (inherited : String → Option (Value Id Number)) : Table Id Number where
  fields := [(.string "current", item.getD (.table emptyTable)),
    (.string "next", next.getD (.table emptyTable))]
  inherited

end Tables

section Values

variable {Id Number : Type u}

namespace Value

def type : Value Id Number → String
  | boolean _ => "boolean"
  | number _ => "number"
  | string _ => "string"
  | table _ => "table"
  | function => "function"
  | userdata => "userdata"
  | thread => "thread"
  | cdata => "cdata"

/-- Only `false` is not true. -/
def truthy : Value Id Number → Bool
  | boolean value => value
  | _ => true

/-- `accepted_types_for_keys` -/
def key? : Value Id Number → Option (Key Number)
  | number value => some (.number value)
  | string text => some (.string text)
  | _ => none

/-- `accepted_types_for_values` -/
def accepted : Value Id Number → Bool
  | number _ | string _ | table _ => true
  | _ => false

end Value

/-- The fields with the wanted types. -/
def wanted (field : Value Id Number × Value Id Number) : Option (Key Number × Value Id Number) :=
  if field.2.accepted then field.1.key?.map (·, field.2) else none

def avoidCircularRefsMsg : Content Number :=
  .table [(.string "already_seen",
    .string "ALREADY SEEN - NOT CALCULATING AGAIN TO AVOID CIRCULAR REFS")]

theorem accepted_of_wanted {field : Value Id Number × Value Id Number} {name : Key Number}
    {value : Value Id Number} (takes : wanted field = some (name, value)) : value.accepted := by
  obtain ⟨accepted, named⟩ := Option.ite_none_right_eq_some.mp takes
  obtain ⟨other, -, same⟩ := Option.map_eq_some_iff.mp named
  cases same
  exact accepted

/-- The tables among the values that are wanted of some fields. -/
def tables (fields : List (Value Id Number × Value Id Number)) : Set Id :=
  {id | ∃ name, (name, .table id) ∈ fields.filterMap wanted}

/-- A table has another one as a value that is wanted. -/
def Holds (heap : Id → Table Id Number) (id other : Id) : Prop := other ∈ tables (heap id).fields

theorem tables_cons_of_wanted {field : Value Id Number × Value Id Number} {name : Key Number}
    {value : Value Id Number} (takes : wanted field = some (name, value))
    (fields : List (Value Id Number × Value Id Number)) :
    tables (field :: fields) = {id | value = .table id} ∪ tables fields := by
  ext id
  unfold tables
  rw [List.filterMap_cons_some takes]
  change (∃ other, _ ∈ (name, value) :: _) ↔ value = .table id ∨ _
  simp only [List.mem_cons, Prod.mk.injEq, exists_or, exists_eq_left, @eq_comm _ _ value]
  rfl

end Values

section Definition

variable {Id Number : Type u} [DecidableEq Id] [DecidableEq Number]

def maxIntegerKey [OfNat Number 1000] : Number := 1000

variable [LE Number] [DecidableLE Number] [OfNat Number 1000] (tostring : Number → String)

/-- Large numbers as keys become strings. -/
def key : Key Number → Key Number
  | .number value => if value ≤ maxIntegerKey then .number value else .string (tostring value)
  | .string text => .string text

variable (heap : Id → Table Id Number)

/-- The loop of `value_from_fun.table`, where `valueFrom` is for the values of the fields. -/
def addField (valueFrom : Value Id Number → Finset Id →
      Except String (Option (Content Number) × Finset Id))
    (progress : List (Key Number × Content Number) × Finset Id)
    (field : Value Id Number × Value Id Number) :
    Except String (List (Key Number × Content Number) × Finset Id) :=
  match wanted field with
  | none => .ok progress
  | some (name, value) => do
      let (content, seen) ← valueFrom value progress.2
      .ok (assign (key tostring name) content progress.1, seen)

/-- `value_from`, with the tables that are seen afterwards. Calls are nested to a depth. -/
def valueFrom : Nat → Value Id Number → Finset Id →
    Except String (Option (Content Number) × Finset Id)
  | depth, .table id, alreadySeen =>
      match depth with
      | 0 => .error "stack overflow"
      | depth + 1 =>
          if id ∈ alreadySeen then .ok (some avoidCircularRefsMsg, alreadySeen)
          else do
            let (res, seen) ← (heap id).fields.foldlM (addField tostring (valueFrom depth))
              ([], insert id alreadySeen)
            .ok (some (.table res), seen)
  | _, .number value, alreadySeen => .ok (some (.number value), alreadySeen)
  | _, .string text, alreadySeen => .ok (some (.string text), alreadySeen)
  | _, _, alreadySeen => .ok (none, alreadySeen)

/-- `current or object`, the value with the content of a list node. -/
def contentValue (object : Id) : Value Id Number :=
  (((heap object).index "current").filter Value.truthy).getD (.table object)

/-- Only the first occurrence of a key is added. -/
def addFirst (node : Option Id) (acc : List (Key Number × Found Id Number))
    (entry : Key Number × Content Number) : List (Key Number × Found Id Number) :=
  if (acc.lookup (key tostring entry.1)).isNone then
    assign (key tostring entry.1) (some ⟨entry.2, node⟩) acc
  else acc

/-- What `pairs` goes through. -/
def pairs (value : Value Id Number) :
    Option (Content Number) → Except String (List (Key Number × Content Number))
  | some (.table entries) => .ok entries
  | some _ => .error ("bad argument #1 to 'for iterator' (table expected, got " ++
      value.type ++ ")")
  | none => .error "bad argument #1 to 'for iterator' (table expected, got nil)"

def addContent : Nat → Value Id Number → List (Key Number × Found Id Number) → Finset Id →
    Except String (List (Key Number × Found Id Number))
  | depth, .table object, acc, alreadySeen =>
      match depth with
      | 0 => .error "stack overflow"
      | depth + 1 => do
          let current := contentValue heap object
          let (valuesOfCurrent, seen) ← valueFrom tostring heap depth current alreadySeen
          let entries ← pairs current valuesOfCurrent
          let shown := ∀ id ∈ alreadySeen, current ≠ .table id
          let acc := entries.foldl (addFirst tostring (if shown then some object else none)) acc
          match ((heap object).index "next").filter Value.truthy with
          | none => .ok acc
          | some next => addContent depth next acc seen
  | _, _, acc, _ => .ok acc

/-- `_M.from`, for a context that is a table. -/
def contentFrom (depth : Nat) (context : Id) :
    Except String (List (Key Number × Found Id Number)) :=
  addContent tostring heap depth (.table context) [] {context}

/-- The next node that content is added from. -/
def nextNode (node : Id) : Option Id :=
  match (heap node).index "next" with
  | some (.table next) => some next
  | _ => none

end Definition

section Marking

open Traversal

variable {Id Number : Type u} [DecidableEq Id] [DecidableEq Number] [LE Number]
  [DecidableLE Number] [OfNat Number 1000] {tostring : Number → String}
  {heap : Id → Table Id Number}

omit [DecidableEq Id] in
/-- A field that is wanted is computed and assigned to its name. -/
theorem addField_eq_ok {compute : Value Id Number → Finset Id →
      Except String (Option (Content Number) × Finset Id)}
    {progress after : List (Key Number × Content Number) × Finset Id}
    {field : Value Id Number × Value Id Number} {name : Key Number} {value : Value Id Number}
    (takes : wanted field = some (name, value)) :
    addField tostring compute progress field = .ok after ↔ ∃ content,
      compute value progress.2 = .ok (content, after.2) ∧
        after.1 = assign (key tostring name) content progress.1 := by
  unfold addField
  rw [takes]
  dsimp only
  rw [FallibleLoop.bind_eq_ok]
  constructor
  · rintro ⟨⟨content, seen⟩, computed, done⟩
    cases done
    exact ⟨content, computed, rfl⟩
  · rintro ⟨content, computed, entries⟩
    exact ⟨(content, after.2), computed, by rw [← entries]⟩

omit [DecidableEq Id] in
theorem addField_of_unwanted {compute : Value Id Number → Finset Id →
      Except String (Option (Content Number) × Finset Id)}
    {progress : List (Key Number × Content Number) × Finset Id}
    {field : Value Id Number × Value Id Number} (unwanted : wanted field = none) :
    addField tostring compute progress field = .ok progress := by
  unfold addField
  rw [unwanted]

/-- A value that is not a table is computed at any depth, without marking anything. -/
theorem valueFrom_of_not_table {value : Value Id Number} {depth : Nat} {seen : Finset Id}
    (plain : ∀ id, value ≠ .table id) : ∃ content,
      valueFrom tostring heap depth value seen = .ok (content, seen) := by
  cases value with
  | table id => exact absurd rfl (plain id)
  | _ => exact ⟨_, by rw [valueFrom] <;> nofun⟩

/-- A table that was not seen is marked, and its fields are computed one after the other. -/
theorem valueFrom_table_eq_ok {depth : Nat} {id : Id} {seen after : Finset Id}
    {content : Option (Content Number)} (fresh : id ∉ seen) :
    valueFrom tostring heap (depth + 1) (.table id) seen = .ok (content, after) ↔ ∃ entries,
      (heap id).fields.foldlM (addField tostring (valueFrom tostring heap depth))
        ([], insert id seen) = .ok (entries, after) ∧ content = some (.table entries) := by
  rw [valueFrom]
  dsimp only
  rw [if_neg fresh, FallibleLoop.bind_eq_ok]
  constructor
  · rintro ⟨⟨entries, seen⟩, computed, done⟩
    cases done
    exact ⟨entries, computed, rfl⟩
  · rintro ⟨entries, computed, rfl⟩
    exact ⟨(entries, after), computed, rfl⟩

theorem valueFrom_table_of_seen {depth : Nat} {id : Id} {seen : Finset Id} (member : id ∈ seen) :
    valueFrom tostring heap (depth + 1) (.table id) seen =
      .ok (some avoidCircularRefsMsg, seen) := by
  rw [valueFrom]
  exact if_pos member

omit [DecidableEq Id] in
/-- The loop over the fields marks what computing the values does. -/
theorem marks_fields {compute : Value Id Number → Finset Id →
      Except String (Option (Content Number) × Finset Id)}
    (marks : ∀ value seen content after, compute value seen = .ok (content, after) →
      Marks (Holds heap) {id | value = .table id} (seen : Set Id) after)
    {fields : List (Value Id Number × Value Id Number)}
    {progress result : List (Key Number × Content Number) × Finset Id}
    (computed : fields.foldlM (addField tostring compute) progress = .ok result) :
    Marks (Holds heap) (tables fields) (progress.2 : Set Id) result.2 := by
  induction fields generalizing progress with
  | nil =>
      cases computed
      exact .refl fun id ⟨name, member⟩ => nomatch member
  | cons field rest ih =>
      obtain ⟨middle, first, others⟩ := FallibleLoop.foldlM_cons_eq_ok.mp computed
      cases takes : wanted field with
      | none =>
          rw [addField_of_unwanted takes] at first
          cases first
          unfold tables
          rw [List.filterMap_cons_none takes]
          exact ih others
      | some taken =>
          obtain ⟨content, valued, -⟩ := (addField_eq_ok takes).mp first
          rw [tables_cons_of_wanted takes]
          exact (marks _ _ _ _ valued).trans (ih others)

/-- Such a value marks nothing. -/
theorem marks_of_not_table {depth : Nat} {value : Value Id Number} {seen after : Finset Id}
    {content : Option (Content Number)} (plain : ∀ id, value ≠ .table id)
    (computed : valueFrom tostring heap depth value seen = .ok (content, after)) :
    Marks (Holds heap) {id | value = .table id} (seen : Set Id) after := by
  obtain ⟨other, same⟩ := valueFrom_of_not_table plain
  cases computed.symm.trans same
  exact .refl fun id table => absurd table (plain id)

/-- Computing a value marks what a traversal from it does. -/
theorem marks_valueFrom {depth : Nat} {value : Value Id Number} {seen after : Finset Id}
    {content : Option (Content Number)}
    (computed : valueFrom tostring heap depth value seen = .ok (content, after)) :
    Marks (Holds heap) {id | value = .table id} (seen : Set Id) after := by
  induction depth generalizing value seen after content with
  | zero =>
      rcases exists_or_forall_not (value = .table ·) with ⟨id, rfl⟩ | plain
      · rw [valueFrom] at computed
        cases computed
      · exact marks_of_not_table plain computed
  | succ depth ih =>
      rcases exists_or_forall_not (value = .table ·) with ⟨id, rfl⟩ | plain
      · have start : {other | (.table id : Value Id Number) = .table other} = {id} := by
          ext other
          exact ⟨fun same => (Value.table.inj same).symm, fun same => congrArg _ same.symm⟩
        rw [start]
        by_cases member : id ∈ seen
        · rw [valueFrom_table_of_seen member] at computed
          cases computed
          exact .refl (Set.singleton_subset_iff.mpr member)
        · obtain ⟨entries, looped, -⟩ := (valueFrom_table_eq_ok member).mp computed
          have marks : Marks (Holds heap) (tables (heap id).fields)
              ((insert id seen : Finset Id) : Set Id) after :=
            marks_fields (fun _ _ _ _ valued => ih valued) looped
          rw [Finset.coe_insert] at marks
          exact marks.visit member
      · exact marks_of_not_table plain computed

omit [DecidableEq Id] in
/-- The loop over the fields ends when computing the values does, from enough tables on. -/
theorem exists_fields {compute : Value Id Number → Finset Id →
      Except String (Option (Content Number) × Finset Id)} {least : Nat}
    (finishes : ∀ value (seen : Finset Id), least ≤ seen.card → ∃ content after,
      compute value seen = .ok (content, after) ∧ seen ⊆ after)
    {fields : List (Value Id Number × Value Id Number)}
    {progress : List (Key Number × Content Number) × Finset Id}
    (enough : least ≤ progress.2.card) :
    ∃ result, fields.foldlM (addField tostring compute) progress = .ok result := by
  induction fields generalizing progress with
  | nil => exact ⟨progress, rfl⟩
  | cons field rest ih =>
      cases takes : wanted field with
      | none =>
          obtain ⟨result, done⟩ := ih enough
          exact ⟨result, FallibleLoop.foldlM_cons_eq_ok.mpr
            ⟨progress, addField_of_unwanted takes, done⟩⟩
      | some taken =>
          obtain ⟨content, after, valued, grows⟩ := finishes taken.2 progress.2 enough
          have more : least ≤ after.card := enough.trans (Finset.card_le_card grows)
          obtain ⟨result, done⟩ :=
            @ih (assign (key tostring taken.1) content progress.1, after) more
          exact ⟨result, FallibleLoop.foldlM_cons_eq_ok.mpr
            ⟨_, (addField_eq_ok takes).mpr ⟨content, valued, rfl⟩, done⟩⟩

/-- Computing a value ends on every graph of tables: each nested call has seen one table more. -/
theorem exists_valueFrom [Fintype Id] {depth : Nat} {seen : Finset Id}
    (enough : Fintype.card Id < depth + seen.card) (value : Value Id Number) :
    ∃ content after, valueFrom tostring heap depth value seen = .ok (content, after) := by
  induction depth generalizing value seen with
  | zero =>
      rw [Nat.zero_add] at enough
      exact absurd enough (Nat.not_lt.mpr seen.card_le_univ)
  | succ depth ih =>
      rcases exists_or_forall_not (value = .table ·) with ⟨id, rfl⟩ | plain
      · by_cases member : id ∈ seen
        · exact ⟨_, seen, valueFrom_table_of_seen member⟩
        · have marked : (insert id seen).card = seen.card + 1 :=
            Finset.card_insert_of_notMem member
          have finishes (value : Value Id Number) (known : Finset Id)
              (more : (insert id seen).card ≤ known.card) : ∃ content after,
                valueFrom tostring heap depth value known = .ok (content, after) ∧
                  known ⊆ after := by
            obtain ⟨content, after, computed⟩ := @ih known (by omega) value
            exact ⟨content, after, computed, (marks_valueFrom computed).grows⟩
          obtain ⟨⟨entries, after⟩, looped⟩ :=
            @exists_fields _ _ _ _ _ _ tostring _ _ finishes (heap id).fields
              ([], insert id seen) le_rfl
          exact ⟨_, after, (valueFrom_table_eq_ok member).mpr ⟨entries, looped, rfl⟩⟩
      · obtain ⟨content, computed⟩ := valueFrom_of_not_table plain
        exact ⟨content, seen, computed⟩

end Marking

section Rendering

variable {Id Number : Type u} [LE Number] [DecidableLE Number] [OfNat Number 1000]
  (tostring : Number → String)

/-- The values that are wanted of some fields, under the keys that they have in the content. -/
def offered (fields : List (Value Id Number × Value Id Number)) :
    List (Key Number × Value Id Number) :=
  (fields.filterMap wanted).map fun (name, value) => (key tostring name, value)

/-- A content comes from a value: it has the same strings and numbers, and of the tables either the
message or, for all their keys, what comes from one of their values. -/
inductive Renders (heap : Id → Table Id Number) : Value Id Number → Content Number → Prop
  | number (value : Number) : Renders heap (.number value) (.number value)
  | string (text : String) : Renders heap (.string text) (.string text)
  | seen (id : Id) : Renders heap (.table id) avoidCircularRefsMsg
  | table {id : Id} {entries : List (Key Number × Content Number)}
      (origin : ∀ entry ∈ entries, Value Id Number)
      (sources : ∀ entry member,
        (entry.1, origin entry member) ∈ offered tostring (heap id).fields)
      (renders : ∀ entry member, Renders heap (origin entry member) entry.2)
      (complete : ∀ field ∈ offered tostring (heap id).fields,
        ∃ content, (field.1, content) ∈ entries) :
      Renders heap (.table id) (.table entries)

/-- The entries come from some fields. -/
structure Renderings (heap : Id → Table Id Number)
    (fields : List (Value Id Number × Value Id Number))
    (entries : List (Key Number × Content Number)) : Prop where
  sound : ∀ entry ∈ entries, ∃ value,
    (entry.1, value) ∈ offered tostring fields ∧ Renders tostring heap value entry.2
  complete : ∀ field ∈ offered tostring fields, ∃ content, (field.1, content) ∈ entries

variable {tostring} {heap : Id → Table Id Number}
  {fields : List (Value Id Number × Value Id Number)}
  {entries : List (Key Number × Content Number)}

theorem offered_append (more : List (Value Id Number × Value Id Number)) :
    offered tostring (fields ++ more) = offered tostring fields ++ offered tostring more := by
  unfold offered
  rw [List.filterMap_append, List.map_append]

theorem offered_singleton {field : Value Id Number × Value Id Number} {name : Key Number}
    {value : Value Id Number} (takes : wanted field = some (name, value)) :
    offered tostring [field] = [(key tostring name, value)] := by
  unfold offered
  rw [List.filterMap_cons_some takes]
  rfl

theorem offered_singleton_of_unwanted {field : Value Id Number × Value Id Number}
    (unwanted : wanted field = none) : offered tostring [field] = [] := by
  unfold offered
  rw [List.filterMap_cons_none unwanted]
  rfl

theorem Renderings.nil : Renderings tostring heap [] [] := ⟨nofun, nofun⟩

/-- A table is rendered by what its fields are rendered by. -/
theorem Renderings.renders {id : Id} (known : Renderings tostring heap (heap id).fields entries) :
    Renders tostring heap (.table id) (.table entries) := by
  choose origin sources renders using known.sound
  exact .table origin sources renders known.complete

theorem Renderings.skip (known : Renderings tostring heap fields entries)
    {field : Value Id Number × Value Id Number} (unwanted : wanted field = none) :
    Renderings tostring heap (fields ++ [field]) entries := by
  have same : offered tostring (fields ++ [field]) = offered tostring fields := by
    rw [offered_append, offered_singleton_of_unwanted unwanted, List.append_nil]
  exact ⟨same ▸ known.sound, same ▸ known.complete⟩

variable [DecidableEq Number]

/-- One more field adds its value, in place of another one with the same key. -/
theorem Renderings.assign (known : Renderings tostring heap fields entries)
    {field : Value Id Number × Value Id Number} {name : Key Number} {value : Value Id Number}
    {content : Content Number} (takes : wanted field = some (name, value))
    (renders : Renders tostring heap value content) :
    Renderings tostring heap (fields ++ [field])
      (assign (key tostring name) (some content) entries) := by
  have more : offered tostring (fields ++ [field]) =
      offered tostring fields ++ [(key tostring name, value)] := by
    rw [offered_append, offered_singleton takes]
  constructor
  · intro entry member
    rw [more]
    rcases mem_assign.mp member with rfl | ⟨old, -⟩
    · exact ⟨value, List.mem_append_right _ (List.mem_singleton_self _), renders⟩
    · obtain ⟨source, offers, rendered⟩ := known.sound entry old
      exact ⟨source, List.mem_append_left _ offers, rendered⟩
  · intro other member
    by_cases same : other.1 = key tostring name
    · exact ⟨content, mem_assign.mpr (.inl (congrArg (·, content) same))⟩
    · rw [more, List.mem_append, List.mem_singleton] at member
      have old := member.resolve_right fun equal => same (congrArg Prod.fst equal)
      obtain ⟨rendered, present⟩ := known.complete other old
      exact ⟨rendered, mem_assign.mpr (.inr ⟨present, same⟩)⟩

/-- The loop over the fields builds entries that come from them, when computing the values does. -/
theorem renderings_fields {compute : Value Id Number → Finset Id →
      Except String (Option (Content Number) × Finset Id)}
    (renders : ∀ value seen content after, value.accepted →
      compute value seen = .ok (content, after) →
        ∃ rendered, content = some rendered ∧ Renders tostring heap value rendered)
    {more : List (Value Id Number × Value Id Number)}
    {progress result : List (Key Number × Content Number) × Finset Id}
    (known : Renderings tostring heap fields progress.1)
    (computed : more.foldlM (addField tostring compute) progress = .ok result) :
    Renderings tostring heap (fields ++ more) result.1 := by
  induction more generalizing fields progress with
  | nil =>
      cases computed
      rwa [List.append_nil]
  | cons field rest ih =>
      obtain ⟨middle, first, others⟩ := FallibleLoop.foldlM_cons_eq_ok.mp computed
      rw [← List.singleton_append, ← List.append_assoc]
      cases takes : wanted field with
      | none =>
          rw [addField_of_unwanted takes] at first
          cases first
          exact ih (known.skip takes) others
      | some taken =>
          obtain ⟨content, valued, assigned⟩ := (addField_eq_ok takes).mp first
          obtain ⟨rendered, rfl, comes⟩ := renders _ _ _ _ (accepted_of_wanted takes) valued
          exact ih (assigned ▸ known.assign takes comes) others

variable [DecidableEq Id] {depth : Nat}

/-- What is built of a table that was not seen comes from its fields, when this is so for the calls
that are nested. -/
theorem renderings_of_nested {id : Id} {seen after : Finset Id} {content : Option (Content Number)}
    (nested : ∀ value seen content after, value.accepted →
      valueFrom tostring heap depth value seen = .ok (content, after) →
        ∃ rendered, content = some rendered ∧ Renders tostring heap value rendered)
    (fresh : id ∉ seen)
    (computed : valueFrom tostring heap (depth + 1) (.table id) seen = .ok (content, after)) :
    ∃ entries, content = some (.table entries) ∧
      Renderings tostring heap (heap id).fields entries := by
  obtain ⟨entries, looped, built⟩ := (valueFrom_table_eq_ok fresh).mp computed
  have known : Renderings tostring heap ([] ++ (heap id).fields) entries :=
    renderings_fields nested .nil looped
  exact ⟨entries, built, known⟩

/-- A value that is accepted is rendered by what is computed of it. -/
theorem renders_of_not_table {value : Value Id Number} {seen after : Finset Id}
    {content : Option (Content Number)}
    (plain : ∀ id, value ≠ .table id) (accepted : value.accepted)
    (computed : valueFrom tostring heap depth value seen = .ok (content, after)) :
    ∃ rendered, content = some rendered ∧ Renders tostring heap value rendered := by
  cases value with
  | number value =>
      rw [valueFrom] at computed
      cases computed
      exact ⟨_, rfl, .number value⟩
  | string text =>
      rw [valueFrom] at computed
      cases computed
      exact ⟨_, rfl, .string text⟩
  | table id => exact absurd rfl (plain id)
  | _ => cases accepted

/-- What is built of a value that is accepted comes from it. -/
theorem renders_valueFrom {value : Value Id Number} {seen after : Finset Id}
    {content : Option (Content Number)} (accepted : value.accepted)
    (computed : valueFrom tostring heap depth value seen = .ok (content, after)) :
    ∃ rendered, content = some rendered ∧ Renders tostring heap value rendered := by
  induction depth generalizing value seen after content with
  | zero =>
      rcases exists_or_forall_not (value = .table ·) with ⟨id, rfl⟩ | plain
      · rw [valueFrom] at computed
        cases computed
      · exact renders_of_not_table plain accepted computed
  | succ depth ih =>
      rcases exists_or_forall_not (value = .table ·) with ⟨id, rfl⟩ | plain
      · by_cases member : id ∈ seen
        · rw [valueFrom_table_of_seen member] at computed
          cases computed
          exact ⟨_, rfl, .seen id⟩
        · obtain ⟨entries, rfl, known⟩ :=
            renderings_of_nested (fun _ _ _ _ accepted => ih accepted) member computed
          exact ⟨_, rfl, known.renders⟩
      · exact renders_of_not_table plain accepted computed

/-- What is computed of a table renders its fields. -/
theorem renderings_valueFrom {id : Id} {seen after : Finset Id} {content : Option (Content Number)}
    (fresh : id ∉ seen)
    (computed : valueFrom tostring heap depth (.table id) seen = .ok (content, after)) :
    ∃ entries, content = some (.table entries) ∧
      Renderings tostring heap (heap id).fields entries := by
  cases depth with
  | zero =>
      rw [valueFrom] at computed
      cases computed
  | succ depth =>
      exact renderings_of_nested (fun _ _ _ _ accepted => renders_valueFrom accepted) fresh computed

end Rendering

section Nodes

variable {Id Number : Type u} [DecidableEq Id] [DecidableEq Number] [LE Number]
  [DecidableLE Number] [OfNat Number 1000] {tostring : Number → String}
  {heap : Id → Table Id Number} {node : Id} {depth : Nat} {seen : Finset Id}
  {acc : List (Key Number × Found Id Number)}

theorem addContent_of_not_table {value : Value Id Number} (plain : ∀ id, value ≠ .table id) :
    addContent tostring heap depth value acc seen = .ok acc := by
  cases value with
  | table id => exact absurd rfl (plain id)
  | _ => rw [addContent]; nofun

/-- `add_content` goes on with the node that is next. -/
theorem addContent_eq : addContent tostring heap (depth + 1) (.table node) acc seen = (do
    let (content, after) ← valueFrom tostring heap depth (contentValue heap node) seen
    let entries ← pairs (contentValue heap node) content
    let source := if ∀ id ∈ seen, contentValue heap node ≠ .table id then some node else none
    let acc := entries.foldl (addFirst tostring source) acc
    match nextNode heap node with
    | none => .ok acc
    | some next => addContent tostring heap depth (.table next) acc after) := by
  have goesOn (acc : List (Key Number × Found Id Number)) (after : Finset Id) :
      (match ((heap node).index "next").filter Value.truthy with
        | none => Except.ok acc
        | some next => addContent tostring heap depth next acc after) =
      match nextNode heap node with
        | none => Except.ok acc
        | some next => addContent tostring heap depth (.table next) acc after := by
    unfold nextNode
    cases (heap node).index "next" with
    | none => rfl
    | some next =>
        cases next with
        | table next => rfl
        | boolean value =>
            cases value with
            | false => rfl
            | true => exact addContent_of_not_table fun _ same => by cases same
        | _ => exact addContent_of_not_table fun _ same => by cases same
  rw [addContent]
  exact bind_congr fun ⟨content, after⟩ => bind_congr fun entries => goesOn _ after

end Nodes

end Apicast.ContextContent
