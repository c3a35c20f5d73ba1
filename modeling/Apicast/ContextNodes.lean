import Mathlib.Data.Fin.Basic
import Apicast.ContextContent
import Apicast.Foundation.LinkedList

/-!
# First values in the list nodes of a context

The content of a context is what is expected of it where the links of its nodes come to an end, and
where every node has a table as its content that was not seen before. A node whose content was seen
does no harm when earlier nodes have values for all its keys, and for the key of the message.
-/

namespace Apicast.ContextContent

open Foundation Traversal

universe u

variable {Id Number : Type u} [DecidableEq Id] [DecidableEq Number]

section Properties

variable [LE Number] [DecidableLE Number] [OfNat Number 1000] (tostring : Number → String)
  (heap : Id → Table Id Number)

def contentFields (node : Id) : List (Value Id Number × Value Id Number) :=
  match contentValue heap node with
  | .table id => (heap id).fields
  | _ => []

/-- A node has a value that is accepted for a key. -/
def Offers (name : Key Number) (node : Id) : Prop :=
  ∃ value, (name, value) ∈ offered tostring (contentFields heap node)

/-- The first node, from one on, that has a value for a key. -/
inductive FirstOffer (name : Key Number) : Id → Id → Prop
  | here {node : Id} (offers : Offers tostring heap name node) : FirstOffer name node node
  | later {node next owner : Id} (misses : ¬Offers tostring heap name node)
      (linked : nextNode heap node = some next) (first : FirstOffer name next owner) :
      FirstOffer name node owner

/-- An entry is a value that a node has for its key. -/
def ComesFrom (name : Key Number) (node : Id) (found : Found Id Number) : Prop :=
  found.node = some node ∧ ∃ value, (name, value) ∈ offered tostring (contentFields heap node) ∧
    Renders tostring heap value found.content

/-- The entry of a key is a value of the first node that has one, if there is such a node. -/
def FirstValue (name : Key Number) (node : Id) : Option (Found Id Number) → Prop
  | some found => ∃ owner, FirstOffer tostring heap name node owner ∧
      ComesFrom tostring heap name owner found
  | none => ∀ owner, ¬FirstOffer tostring heap name node owner

/-- What is expected of the content of a context: it is there when calls may be nested deeply
enough, and all keys have their values from the first nodes with one for them. -/
def Dumps (context : Id) : Prop :=
  ∃ limit, ∀ depth, limit ≤ depth → ∃ content,
    contentFrom tostring heap depth context = .ok content ∧
      ∀ name, FirstValue tostring heap name context (content.lookup name)

def alreadySeen : Key Number := .string "already_seen"

/-- A table is seen when it is the context, or reached from the content of earlier nodes without
going through the context. -/
def Seen (context : Id) (earlier : List Id) (id : Id) : Prop :=
  id = context ∨ ∃ node ∈ earlier, ∃ start, contentValue heap node = .table start ∧
    Reaches (Holds heap) {context} start id

/-- A node is shown when its content is a table, and earlier nodes have values for all its keys and
for the key of the message in case the table was seen. -/
def Shown (context : Id) (earlier : List Id) (node : Id) : Prop :=
  ∃ id, contentValue heap node = .table id ∧ (Seen heap context earlier id →
    ∀ name, name = alreadySeen ∨ Offers tostring heap name node →
      ∃ before ∈ earlier, Offers tostring heap name before)

/-- The nodes from one on are all shown, and come to an end. -/
inductive Readable (context : Id) : List Id → Id → Prop
  | last {earlier : List Id} {node : Id} (shown : Shown tostring heap context earlier node)
      (ends : nextNode heap node = none) : Readable context earlier node
  | link {earlier : List Id} {node next : Id} (shown : Shown tostring heap context earlier node)
      (linked : nextNode heap node = some next)
      (rest : Readable context (earlier ++ [node]) next) : Readable context earlier node

/-- What a node adds to the content of a context: the message if its content was seen, and otherwise
its values. -/
inductive Adds (context : Id) (earlier : List Id) (node : Id)
    (adds : Key Number → Option (Found Id Number)) : Prop
  | message {id : Id} {found : Found Id Number} (content : contentValue heap node = .table id)
      (seen : Seen heap context earlier id) (shows : adds alreadySeen = some found)
      (foreign : found.node = none) (others : ∀ name, name ≠ alreadySeen → adds name = none)
  | values {id : Id} (content : contentValue heap node = .table id)
      (fresh : ¬Seen heap context earlier id)
      (sound : ∀ name found, adds name = some found → ComesFrom tostring heap name node found)
      (complete : ∀ name, adds name = none → ¬Offers tostring heap name node)

/-- What the nodes from one on add, the first ones first. -/
inductive Adding (context : Id) : List Id → Id → (Key Number → Option (Found Id Number)) → Prop
  | last {earlier : List Id} {node : Id} {first : Key Number → Option (Found Id Number)}
      (adds : Adds tostring heap context earlier node first) (ends : nextNode heap node = none) :
      Adding context earlier node first
  | link {earlier : List Id} {node next : Id} {first later : Key Number → Option (Found Id Number)}
      (adds : Adds tostring heap context earlier node first)
      (linked : nextNode heap node = some next)
      (rest : Adding context (earlier ++ [node]) next later) :
      Adding context earlier node (LinkedList.link first later)

end Properties

section Entries

variable [LE Number] [DecidableLE Number] [OfNat Number 1000] {tostring : Number → String}
  {heap : Id → Table Id Number} {name other : Key Number}

omit [DecidableEq Id] [LE Number] [DecidableLE Number] [OfNat Number 1000] in
theorem lookup_filter_ne {Entry : Type u} {entries : List (Key Number × Entry)}
    (different : other ≠ name) :
    (entries.filter (·.1 ≠ name)).lookup other = entries.lookup other := by
  induction entries with
  | nil => rfl
  | cons entry rest ih =>
      by_cases same : entry.1 = name
      · have skipped : (other == entry.1) = false :=
          beq_false_of_ne fun equal => different (equal.trans same)
        rw [List.filter_cons_of_neg (by simpa using same), ih, List.lookup_cons, skipped]
      · rw [List.filter_cons_of_pos (by simpa using same), List.lookup_cons, List.lookup_cons, ih]

omit [DecidableEq Id] [LE Number] [DecidableLE Number] [OfNat Number 1000] in
theorem lookup_assign {Entry : Type u} {value : Entry} {entries : List (Key Number × Entry)} :
    (assign name (some value) entries).lookup other =
      if other = name then some value else entries.lookup other := by
  change List.lookup other ((name, value) :: entries.filter (·.1 ≠ name)) = _
  by_cases same : other = name
  · rw [if_pos same, same, List.lookup_cons_self]
  · rw [if_neg same, List.lookup_cons, beq_false_of_ne same]
    exact lookup_filter_ne same

omit [DecidableEq Number] [DecidableEq Id] in
@[simp]
theorem key_key (name : Key Number) : key tostring (key tostring name) = key tostring name := by
  cases name with
  | string text => rfl
  | number value =>
      by_cases small : value ≤ maxIntegerKey
      · have same : key tostring (.number value) = .number value := if_pos small
        rw [same, same]
      · have large : key tostring (.number value) = .string (tostring value) := if_neg small
        rw [large]
        rfl

omit [DecidableEq Number] [DecidableEq Id] in
theorem key_of_offered {fields : List (Value Id Number × Value Id Number)}
    {value : Value Id Number} (offers : (name, value) ∈ offered tostring fields) :
    key tostring name = name := by
  obtain ⟨⟨raw, taken⟩, -, same⟩ := List.mem_map.mp offers
  cases same
  exact key_key raw

/-- The entry that is added for a key. -/
def added (tostring : Number → String) (node : Option Id)
    (entries : List (Key Number × Content Number)) (name : Key Number) :
    Option (Found Id Number) :=
  (entries.find? (key tostring ·.1 = name)).map fun entry => ⟨entry.2, node⟩

omit [DecidableEq Id] in
/-- Adding entries keeps what is found, and finds the first ones of them behind it. -/
theorem lookup_addFirst {node : Option Id} {entries : List (Key Number × Content Number)}
    {acc : List (Key Number × Found Id Number)} :
    (entries.foldl (addFirst tostring node) acc).lookup name =
      (acc.lookup name).or (added tostring node entries name) := by
  induction entries generalizing acc with
  | nil => exact (Option.or_none).symm
  | cons entry rest ih =>
      rw [List.foldl_cons, ih]
      unfold addFirst added
      by_cases same : key tostring entry.1 = name
      · rw [List.find?_cons_of_pos (by simpa using same), same]
        cases old : acc.lookup name with
        | none =>
            rw [Option.isNone_none, if_pos rfl, lookup_assign, if_pos rfl]
            rfl
        | some found =>
            rw [Option.isNone_some, if_neg Bool.false_ne_true, old]
            rfl
      · rw [List.find?_cons_of_neg (by simpa using same)]
        split
        · rw [lookup_assign, if_neg (Ne.symm same)]
        · rfl

omit [DecidableEq Id] in
theorem added_eq_some {node : Option Id} {entries : List (Key Number × Content Number)}
    {found : Found Id Number} (adds : added tostring node entries name = some found) :
    ∃ entry ∈ entries, key tostring entry.1 = name ∧ found = ⟨entry.2, node⟩ := by
  obtain ⟨entry, finds, same⟩ := Option.map_eq_some_iff.mp adds
  exact ⟨entry, List.mem_of_find?_eq_some finds, by simpa using List.find?_some finds, same.symm⟩

omit [DecidableEq Id] in
theorem added_eq_none {node : Option Id} {entries : List (Key Number × Content Number)} :
    added tostring node entries name = none ↔ ∀ entry ∈ entries, key tostring entry.1 ≠ name := by
  unfold added
  rw [Option.map_eq_none_iff, List.find?_eq_none]
  simp only [decide_eq_true_eq, ne_eq]

end Entries

section Nodes

variable {tostring : Number → String} {heap : Id → Table Id Number} {context node : Id}
  {earlier : List Id} {depth : Nat} {seen after : Finset Id} {content : Option (Content Number)}
  {entries : List (Key Number × Content Number)} {acc result : List (Key Number × Found Id Number)}

omit [DecidableEq Number] [DecidableEq Id] in
theorem pairs_eq_ok {value : Value Id Number} :
    pairs value content = .ok entries ↔ content = some (.table entries) := by
  match content with
  | some (.table _) => exact ⟨fun same => by cases same; rfl, fun same => by cases same; rfl⟩
  | some (.number _) | some (.string _) | none => exact iff_of_false nofun nofun

theorem contentFields_of_table {id : Id} (table : contentValue heap node = .table id) :
    contentFields heap node = (heap id).fields := by
  unfold contentFields
  rw [table]

/-- What is seen is closed under what tables have as values, apart from the context. -/
theorem sealed_seen : Sealed (Holds heap) {context} {id | Seen heap context earlier id} := by
  intro id known apart other holds
  by_cases same : other = context
  · exact .inl same
  · obtain ⟨before, member, start, table, outside, path⟩ := known.resolve_left apart
    exact .inr ⟨before, member, start, table, outside, path.tail ⟨holds, same⟩⟩

variable [LE Number] [DecidableLE Number] [OfNat Number 1000]

/-- Only of tables there is something to go through. -/
theorem table_of_valueFrom {value : Value Id Number}
    (computed : valueFrom tostring heap depth value seen = .ok (some (.table entries), after)) :
    ∃ id, value = .table id := by
  cases value with
  | table id => exact ⟨id, rfl⟩
  | _ =>
      rw [valueFrom] at computed
      · cases computed
      all_goals exact fun _ same => by cases same

theorem table_of_valueFrom_table {id : Id}
    (computed : valueFrom tostring heap depth (.table id) seen = .ok (content, after)) :
    ∃ entries, content = some (.table entries) := by
  by_cases member : id ∈ seen
  · cases depth with
    | zero =>
        rw [valueFrom] at computed
        cases computed
    | succ depth =>
        rw [valueFrom_table_of_seen member] at computed
        cases computed
        exact ⟨_, rfl⟩
  · obtain ⟨entries, built, -⟩ := renderings_valueFrom member computed
    exact ⟨entries, built⟩

/-- After a node, what is seen includes all that is reached from its content. -/
theorem mem_after_iff (known : ∀ id, id ∈ seen ↔ Seen heap context earlier id)
    (computed : valueFrom tostring heap depth (contentValue heap node) seen =
      .ok (content, after)) (id : Id) :
    id ∈ after ↔ Seen heap context (earlier ++ [node]) id := by
  have marks := marks_valueFrom computed
  have same : (seen : Set Id) = {id | Seen heap context earlier id} := Set.ext known
  rw [same] at marks
  have inside : ({context} : Set Id) ⊆ {id | Seen heap context earlier id} :=
    Set.singleton_subset_iff.mpr (.inl rfl)
  refine (marks.mem_iff sealed_seen inside).trans ?_
  change (_ = _ ∨ _) ∨ _ ↔ _ = _ ∨ _
  rw [or_assoc]
  refine or_congr_right ?_
  simp only [List.mem_append, List.mem_singleton, or_and_right, exists_or, exists_eq_left]
  rfl

/-- A node adds the message about its content or the values of it. -/
theorem adds_of_valueFrom (known : ∀ id, id ∈ seen ↔ Seen heap context earlier id)
    (computed : valueFrom tostring heap depth (contentValue heap node) seen =
      .ok (some (.table entries), after)) :
    Adds tostring heap context earlier node (added tostring
      (if ∀ id ∈ seen, contentValue heap node ≠ .table id then some node else none) entries) := by
  obtain ⟨id, table⟩ := table_of_valueFrom computed
  rw [table] at computed ⊢
  by_cases member : id ∈ seen
  · have foreign : ¬∀ other ∈ seen, (.table id : Value Id Number) ≠ .table other :=
      fun apart => apart id member rfl
    rw [if_neg foreign]
    cases depth with
    | zero =>
        rw [valueFrom] at computed
        cases computed
    | succ depth =>
        rw [valueFrom_table_of_seen member] at computed
        cases computed
        refine .message table ((known id).mp member) rfl rfl fun name different => ?_
        exact added_eq_none.mpr (List.forall_mem_singleton.mpr different.symm)
  · have own : ∀ other ∈ seen, (.table id : Value Id Number) ≠ .table other :=
      fun other inside same => member (Value.table.inj same ▸ inside)
    rw [if_pos own]
    obtain ⟨others, built, renderings⟩ := renderings_valueFrom member computed
    cases built
    refine .values table (fun before => member ((known id).mpr before)) ?_ ?_
    · rintro name found adds
      obtain ⟨entry, present, named, rfl⟩ := added_eq_some adds
      obtain ⟨value, offers, renders⟩ := renderings.sound entry present
      have same : entry.1 = name := (key_of_offered offers).symm.trans named
      exact ⟨rfl, value, by rwa [contentFields_of_table table, ← same], renders⟩
    · rintro name absent ⟨value, offers⟩
      rw [contentFields_of_table table] at offers
      obtain ⟨rendered, present⟩ := renderings.complete _ offers
      exact added_eq_none.mp absent _ present (key_of_offered offers)

/-- The nodes add what is found behind what was there. -/
theorem adding_of_addContent (known : ∀ id, id ∈ seen ↔ Seen heap context earlier id)
    (done : addContent tostring heap depth (.table node) acc seen = .ok result) :
    ∃ adds, Adding tostring heap context earlier node adds ∧
      ∀ name, result.lookup name = (acc.lookup name).or (adds name) := by
  induction depth generalizing node earlier acc seen with
  | zero =>
      rw [addContent] at done
      cases done
  | succ depth ih =>
      rw [addContent_eq] at done
      obtain ⟨⟨content, after⟩, computed, done⟩ := FallibleLoop.bind_eq_ok.mp done
      obtain ⟨entries, paired, done⟩ := FallibleLoop.bind_eq_ok.mp done
      cases pairs_eq_ok.mp paired
      have adds := adds_of_valueFrom known computed
      cases linked : nextNode heap node with
      | none =>
          rw [linked] at done
          cases done
          exact ⟨_, .last adds linked, fun name => lookup_addFirst⟩
      | some next =>
          rw [linked] at done
          obtain ⟨later, adding, lookups⟩ := ih (mem_after_iff known computed) done
          refine ⟨_, .link adds linked adding, fun name => ?_⟩
          rw [lookups, lookup_addFirst]
          exact Option.or_assoc

end Nodes

section FirstValues

variable [LE Number] [DecidableLE Number] [OfNat Number 1000] {tostring : Number → String}
  {heap : Id → Table Id Number} {context node next owner : Id} {earlier : List Id}
  {name : Key Number} {first later adds : Key Number → Option (Found Id Number)}

theorem firstOffer_of_offers (offers : Offers tostring heap name node) :
    FirstOffer tostring heap name node owner ↔ owner = node := by
  constructor
  · intro found
    cases found with
    | here => rfl
    | later misses => exact absurd offers misses
  · rintro rfl
    exact .here offers

theorem firstOffer_of_misses (misses : ¬Offers tostring heap name node)
    (linked : nextNode heap node = some next) :
    FirstOffer tostring heap name node owner ↔ FirstOffer tostring heap name next owner := by
  constructor
  · intro found
    cases found with
    | here offers => exact absurd offers misses
    | later _ same found =>
        cases linked.symm.trans same
        exact found
  · exact .later misses linked

theorem not_firstOffer (misses : ¬Offers tostring heap name node)
    (ends : nextNode heap node = none) : ¬FirstOffer tostring heap name node owner := by
  intro found
  cases found with
  | here offers => exact misses offers
  | later _ linked => cases ends.symm.trans linked

/-- What is expected of a key without a value in a node is what is expected of it in the next
one. -/
theorem firstValue_of_misses (misses : ¬Offers tostring heap name node)
    (linked : nextNode heap node = some next) {entry : Option (Found Id Number)} :
    FirstValue tostring heap name node entry ↔ FirstValue tostring heap name next entry := by
  cases entry with
  | none => exact forall_congr' fun owner => not_congr (firstOffer_of_misses misses linked)
  | some found =>
      exact exists_congr fun owner => and_congr_left' (firstOffer_of_misses misses linked)

/-- A node that is shown adds nothing for the keys that it has no values for. -/
theorem Adds.eq_none (known : Adds tostring heap context earlier node first)
    (shown : Shown tostring heap context earlier node)
    (new : ∀ before ∈ earlier, ¬Offers tostring heap name before)
    (misses : ¬Offers tostring heap name node) : first name = none := by
  obtain ⟨id, content, covered⟩ := shown
  cases known with
  | message same seen shows foreign others =>
      cases content.symm.trans same
      refine others name fun message => ?_
      obtain ⟨before, member, offers⟩ := covered seen name (.inl message)
      exact new before member offers
  | values _ _ sound _ =>
      cases adds : first name with
      | none => rfl
      | some found =>
          obtain ⟨-, value, offers, -⟩ := sound name found adds
          exact absurd ⟨value, offers⟩ misses

/-- A node that is shown adds its values for the keys without values in earlier nodes. -/
theorem Adds.exists_of_offers (known : Adds tostring heap context earlier node first)
    (shown : Shown tostring heap context earlier node)
    (new : ∀ before ∈ earlier, ¬Offers tostring heap name before)
    (offers : Offers tostring heap name node) :
    ∃ found, first name = some found ∧ ComesFrom tostring heap name node found := by
  obtain ⟨id, content, covered⟩ := shown
  cases known with
  | message same seen =>
      cases content.symm.trans same
      obtain ⟨before, member, known⟩ := covered seen name (.inr offers)
      exact absurd known (new before member)
  | values _ _ sound complete =>
      cases adds : first name with
      | none => exact absurd offers (complete name adds)
      | some found => exact ⟨found, rfl, sound name found adds⟩

/-- Where all nodes are shown, the keys have their values from the first nodes with one. -/
theorem Readable.firstValue (readable : Readable tostring heap context earlier node)
    (adding : Adding tostring heap context earlier node adds)
    (new : ∀ before ∈ earlier, ¬Offers tostring heap name before) :
    FirstValue tostring heap name node (adds name) := by
  induction readable generalizing adds with
  | @last earlier node shown ends =>
      cases adding with
      | link _ linked => cases ends.symm.trans linked
      | last known =>
          by_cases offers : Offers tostring heap name node
          · obtain ⟨found, adds, comes⟩ := known.exists_of_offers shown new offers
            rw [adds]
            exact ⟨node, .here offers, comes⟩
          · rw [known.eq_none shown new offers]
            exact fun owner => not_firstOffer offers ends
  | @link earlier node next shown linked rest ih =>
      cases adding with
      | last _ ends => cases ends.symm.trans linked
      | @link _ _ _ first later known same adding =>
          cases linked.symm.trans same
          change FirstValue tostring heap name node ((first name).or (later name))
          by_cases offers : Offers tostring heap name node
          · obtain ⟨found, adds, comes⟩ := known.exists_of_offers shown new offers
            rw [adds]
            exact ⟨node, .here offers, comes⟩
          · have value := ih adding (List.forall_mem_append.mpr
              ⟨new, List.forall_mem_singleton.mpr offers⟩)
            rw [known.eq_none shown new offers, Option.none_or]
            exact (firstValue_of_misses offers linked).mpr value

/-- The entries that are values of nodes are so of nodes that the links come to. -/
theorem Adding.node_mem (adding : Adding tostring heap context earlier node adds) :
    ∃ nodes, Linked (nextNode heap) node nodes ∧
      ∀ name found source, adds name = some found → found.node = some source → source ∈ nodes := by
  have own {earlier : List Id} {node : Id} {first : Key Number → Option (Found Id Number)}
      (known : Adds tostring heap context earlier node first) {name : Key Number}
      {found : Found Id Number} {source : Id} (adds : first name = some found)
      (origin : found.node = some source) : source = node := by
    cases known with
    | @message _ other _ _ shows foreign others =>
        by_cases message : name = alreadySeen
        · rw [message, shows] at adds
          cases adds
          cases foreign.symm.trans origin
        · cases (others name message).symm.trans adds
    | values _ _ sound _ =>
        exact Option.some.inj (origin.symm.trans (sound name found adds).1)
  induction adding with
  | last known ends =>
      exact ⟨_, .last ends, fun name found source adds origin =>
        List.mem_singleton.mpr (own known adds origin)⟩
  | @link _ node _ first later known linked rest ih =>
      obtain ⟨nodes, links, members⟩ := ih
      refine ⟨node :: nodes, .link linked links, fun name found source adds origin => ?_⟩
      rcases Option.or_eq_some_iff.mp adds with early | ⟨-, late⟩
      · exact own known early origin ▸ List.mem_cons_self
      · exact List.mem_cons_of_mem _ (members name found source late origin)

/-- A node is shown when what it adds, in front of entries that are not its values, is expected. -/
theorem Adds.shown (known : Adds tostring heap context earlier node first)
    (later : Key Number → Option (Found Id Number))
    (foreign : ∀ name found, later name = some found → found.node ≠ some node)
    (values : ∀ name, (∀ before ∈ earlier, ¬Offers tostring heap name before) →
      FirstValue tostring heap name node ((first name).or (later name))) :
    Shown tostring heap context earlier node := by
  cases known with
  | values content fresh => exact ⟨_, content, fun seen => absurd seen fresh⟩
  | @message id message content seen shows unowned others =>
      refine ⟨id, content, fun _ name needed => ?_⟩
      by_contra new
      have value := values name fun before member offers => new ⟨before, member, offers⟩
      by_cases same : name = alreadySeen
      · rw [same, shows] at value
        obtain ⟨owner, -, owned, -⟩ := value
        cases unowned.symm.trans owned
      · have offers := needed.resolve_left same
        rw [others name same, Option.none_or] at value
        cases adds : later name with
        | none =>
            rw [adds] at value
            exact value node (.here offers)
        | some found =>
            rw [adds] at value
            obtain ⟨owner, first, owned, -⟩ := value
            cases (firstOffer_of_offers offers).mp first
            exact foreign name found adds owned

/-- Where the keys have their values from the first nodes with one, all nodes are shown. -/
theorem Adding.readable (adding : Adding tostring heap context earlier node adds)
    (values : ∀ name, (∀ before ∈ earlier, ¬Offers tostring heap name before) →
      FirstValue tostring heap name node (adds name)) :
    Readable tostring heap context earlier node := by
  induction adding with
  | @last earlier node first known ends =>
      refine .last (known.shown (fun _ => none) nofun fun name new => ?_) ends
      rw [Option.or_none]
      exact values name new
  | @link earlier node next first later known linked rest ih =>
      have foreign (name : Key Number) (found : Found Id Number) (adds : later name = some found) :
          found.node ≠ some node := by
        intro origin
        obtain ⟨nodes, links, members⟩ := rest.node_mem
        exact (Linked.link linked links).not_mem_tail (members name found node adds origin)
      have shown := known.shown later foreign values
      refine .link shown linked (ih fun name new => ?_)
      obtain ⟨before, own⟩ := List.forall_mem_append.mp new
      have misses := List.forall_mem_singleton.mp own
      have value := values name before
      change FirstValue tostring heap name node ((first name).or (later name)) at value
      rw [known.eq_none shown before misses, Option.none_or] at value
      exact (firstValue_of_misses misses linked).mp value

end FirstValues

section Dump

variable [LE Number] [DecidableLE Number] [OfNat Number 1000] {tostring : Number → String}
  {heap : Id → Table Id Number} {context node : Id} {earlier : List Id}

theorem addContent_of_valueFrom (acc : List (Key Number × Found Id Number)) {depth : Nat}
    {seen after : Finset Id} {entries : List (Key Number × Content Number)}
    (computed : valueFrom tostring heap depth (contentValue heap node) seen =
      .ok (some (.table entries), after)) :
    ∃ more, addContent tostring heap (depth + 1) (.table node) acc seen =
      match nextNode heap node with
      | none => .ok more
      | some next => addContent tostring heap depth (.table next) more after := by
  rw [addContent_eq, computed]
  exact ⟨_, rfl⟩

/-- The content of a node that is shown is computed, with calls that are nested deeply enough. -/
theorem Shown.exists_valueFrom [Fintype Id] (shown : Shown tostring heap context earlier node)
    {depth : Nat} (deep : Fintype.card Id < depth) (seen : Finset Id) : ∃ entries after,
      valueFrom tostring heap depth (contentValue heap node) seen =
        .ok (some (.table entries), after) := by
  obtain ⟨id, table, -⟩ := shown
  rw [table]
  have ends : ∃ content after,
      valueFrom tostring heap depth (.table id) seen = .ok (content, after) :=
    ContextContent.exists_valueFrom (Nat.lt_add_right _ deep) _
  obtain ⟨content, after, computed⟩ := ends
  obtain ⟨entries, rfl⟩ := table_of_valueFrom_table computed
  exact ⟨entries, after, computed⟩

/-- Adding the content of nodes that are shown ends, with calls that are nested deeply enough. -/
theorem Readable.exists_addContent [Fintype Id]
    (readable : Readable tostring heap context earlier node) :
    ∃ limit, ∀ depth, limit ≤ depth → ∀ acc seen, ∃ result,
      addContent tostring heap depth (.table node) acc seen = .ok result := by
  induction readable with
  | last shown ends =>
      refine ⟨Fintype.card Id + 2, fun depth deep acc seen => ?_⟩
      obtain ⟨depth, rfl⟩ := Nat.exists_eq_add_of_le' (Nat.one_le_of_lt deep)
      have enough : Fintype.card Id < depth := by omega
      obtain ⟨entries, after, computed⟩ := shown.exists_valueFrom enough seen
      obtain ⟨more, added⟩ := addContent_of_valueFrom acc computed
      rw [added, ends]
      exact ⟨more, rfl⟩
  | link shown linked rest ih =>
      obtain ⟨limit, ends⟩ := ih
      refine ⟨max (Fintype.card Id + 2) (limit + 1), fun depth deep acc seen => ?_⟩
      obtain ⟨deepEnough, further⟩ := max_le_iff.mp deep
      obtain ⟨depth, rfl⟩ := Nat.exists_eq_add_of_le' (Nat.one_le_of_lt deepEnough)
      have enough : Fintype.card Id < depth := by omega
      obtain ⟨entries, after, computed⟩ := shown.exists_valueFrom enough seen
      obtain ⟨more, added⟩ := addContent_of_valueFrom acc computed
      rw [added, linked]
      exact ends depth (Nat.le_of_succ_le_succ further) more after

theorem lookup_contentFrom {depth : Nat} {content : List (Key Number × Found Id Number)}
    (done : contentFrom tostring heap depth context = .ok content) :
    Adding tostring heap context [] context fun name => content.lookup name := by
  have known (id : Id) : id ∈ ({context} : Finset Id) ↔ Seen heap context [] id := by
    refine Finset.mem_singleton.trans ⟨.inl, fun seen => seen.resolve_right ?_⟩
    rintro ⟨node, member, -⟩
    cases member
  obtain ⟨adds, adding, lookups⟩ := adding_of_addContent known done
  have same : (fun name => content.lookup name) = adds := funext lookups
  rwa [same]

theorem dumps_of_readable [Fintype Id] (readable : Readable tostring heap context [] context) :
    Dumps tostring heap context := by
  obtain ⟨limit, ends⟩ := readable.exists_addContent
  refine ⟨limit, fun depth deep => ?_⟩
  obtain ⟨content, done⟩ := ends depth deep [] {context}
  exact ⟨content, done, fun name =>
    readable.firstValue (lookup_contentFrom done) (List.forall_mem_nil _)⟩

theorem readable_of_dumps (dumps : Dumps tostring heap context) :
    Readable tostring heap context [] context := by
  obtain ⟨limit, ends⟩ := dumps
  obtain ⟨content, done, values⟩ := ends limit le_rfl
  exact (lookup_contentFrom done).readable fun name _ => values name

/-- The content of a context is as expected exactly if its nodes come to an end and are shown. -/
theorem dumps_iff_readable [Fintype Id] (tostring : Number → String) (heap : Id → Table Id Number)
    (context : Id) : Dumps tostring heap context ↔ Readable tostring heap context [] context :=
  ⟨readable_of_dumps, dumps_of_readable⟩

end Dump

section Examples

/-- A list of one node that is linked to itself. -/
def cyclic : Bool → Table Bool ℕ
  | false => linkedList (some (.table true)) (some (.table false)) true fun name =>
      if name = "a" then some (.number 1) else none
  | true => ⟨[(.string "a", .number 1)], fun _ => none⟩

/-- A list of two nodes where the second one has a table that the first one has as a value. -/
def shared : Fin 5 → Table (Fin 5) ℕ
  | 0 => linkedList (some (.table 1)) (some (.table 2)) 4 fun name =>
      if name = "inner" then some (.table 3) else if name = "a" then some (.number 1) else none
  | 1 => ⟨[(.string "inner", .table 3)], fun _ => none⟩
  | 2 => linkedList (some (.table 3)) none 4 fun name =>
      if name = "a" then some (.number 1) else none
  | 3 => ⟨[(.string "a", .number 1)], fun _ => none⟩
  | 4 => ⟨[], fun _ => none⟩

example : contentFrom toString shared 5 2 = .ok [(.string "a", ⟨.number 1, some 2⟩)] := rfl

/-- The content of a cyclic list is never there, and the content of the other one is without the
values of its second node. -/
theorem not_dumps_cyclic : ¬Dumps toString cyclic false ∧ ¬Dumps toString shared 0 := by
  constructor
  · intro dumps
    have apart {earlier : List Bool} {node : Bool}
        (readable : Readable toString cyclic false earlier node) : node ≠ false := by
      induction readable with
      | last _ ends =>
          rintro rfl
          cases ends
      | link _ linked _ ih =>
          rintro rfl
          cases linked
          exact ih rfl
    exact apart (readable_of_dumps dumps) rfl
  · intro dumps
    cases readable_of_dumps dumps with
    | last _ ends => cases ends
    | link _ linked rest =>
        cases linked
        have seen : Seen shared 0 [0] 3 := by
          refine .inr ⟨0, List.mem_singleton_self 0, 1, rfl, nofun, .single ⟨?_, nofun⟩⟩
          exact ⟨.string "inner", List.mem_singleton_self _⟩
        have shown : Shown toString shared 0 [0] 2 := by
          cases rest with
          | last shown | link shown => exact shown
        obtain ⟨id, content, covered⟩ := shown
        cases content
        have offers : Offers toString shared (.string "a") 2 :=
          ⟨.number 1, List.mem_singleton_self _⟩
        obtain ⟨before, member, value, offered⟩ := covered seen (.string "a") (.inr offers)
        cases List.mem_singleton.mp member
        have same := Key.string.inj (congrArg Prod.fst (List.mem_singleton.mp offered))
        exact absurd same (by decide)

end Examples

end Apicast.ContextContent
