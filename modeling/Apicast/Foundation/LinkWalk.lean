import Mathlib.Data.Finset.Card
import Apicast.Foundation.FallibleLoop

/-!
# Walks that follow links

Every key has a list of items, and an item may have a link to another key. A walk from a key
collects its items, each one behind the items that its link leads to. It stops with an error when it
comes to a key again, so that every key has its items collected at most once.
-/

namespace Foundation.LinkWalk

/-- Why a walk ends early. A walk is unfinished when its links are followed no deeper. -/
inductive Failure (Error : Type*)
  | stopped (error : Error)
  | unfinished
  deriving DecidableEq, Repr

structure Progress (Key Item : Type*) where
  seen : List Key
  found : List Item
  deriving DecidableEq, Repr

variable {Key Item Error Value : Type*}

/-- A key has an item with a link to another one. -/
def Links (items : Key → List Item) (link : Item → Option Key) (key next : Key) : Prop :=
  ∃ item ∈ items key, link item = some next

section Definition

variable (link : Item → Option Key)

/-- An item is collected when its link was followed. -/
def collect (follow : Option Key → Progress Key Item → Except (Failure Error) (Progress Key Item))
    (progress : Progress Key Item) (item : Item) :
    Except (Failure Error) (Progress Key Item) := do
  let progress ← follow (link item) progress
  .ok { progress with found := progress.found ++ [item] }

variable [DecidableEq Key] (items : Key → List Item) (circular : Key → Error)

def walk : Nat → Option Key → Progress Key Item → Except (Failure Error) (Progress Key Item)
  | 0, _, _ => .error .unfinished
  | _ + 1, none, progress => .ok progress
  | depth + 1, some key, progress =>
      if key ∈ progress.seen then .error (.stopped (circular key))
      else (items key).foldlM (collect link (walk depth))
        { progress with seen := key :: progress.seen }

end Definition

section Selection

variable (select : Item → Option Value) (home : Key) (values : List Value)

/-- What a part of a walk adds to the values that are selected from the items. They come from one
key only, which is their home. -/
structure Part (before after : Progress Key Item) : Prop where
  seen : ∀ key ∈ before.seen, key ∈ after.seen
  gained : ∃ gained, after.found.filterMap select = before.found.filterMap select ++ gained ∧
    (gained = [] ∨ gained = values ∧ home ∉ before.seen ∧ home ∈ after.seen)

variable {select home values} {before middle after : Progress Key Item}

theorem Part.refl : Part select home values before before :=
  ⟨fun _ member => member, [], (List.append_nil _).symm, .inl rfl⟩

theorem Part.trans (first : Part select home values before middle)
    (second : Part select home values middle after) : Part select home values before after := by
  obtain ⟨kept, gained, found, origin⟩ := first
  obtain ⟨keptAfter, gainedAfter, foundAfter, originAfter⟩ := second
  refine ⟨fun key member => keptAfter key (kept key member), gained ++ gainedAfter, ?_, ?_⟩
  · rw [foundAfter, found, List.append_assoc]
  · rcases origin with rfl | ⟨rfl, fresh, seen⟩
    · rcases originAfter with rfl | ⟨rfl, fresh, seen⟩
      · exact .inl rfl
      · exact .inr ⟨rfl, fun member => fresh (kept home member), seen⟩
    · rcases originAfter with rfl | ⟨_, unseen, _⟩
      · exact .inr ⟨List.append_nil _, fresh, keptAfter home seen⟩
      · exact absurd seen unseen

/-- Nothing more is selected once the home was seen. -/
theorem Part.selected_of_seen (part : Part select home values before after)
    (seen : home ∈ before.seen) :
    after.found.filterMap select = before.found.filterMap select := by
  obtain ⟨gained, found, rfl | ⟨_, unseen, _⟩⟩ := part.gained
  · rwa [List.append_nil] at found
  · exact absurd seen unseen

theorem part_append_of_unselected {item : Item} (unselected : select item = none) :
    Part select home values before { before with found := before.found ++ [item] } := by
  refine ⟨fun _ member => member, [], ?_, .inl rfl⟩
  rw [List.filterMap_append, List.filterMap_cons_none unselected, List.filterMap_nil]

section Loop

variable {link : Item → Option Key}
  {follow : Option Key → Progress Key Item → Except (Failure Error) (Progress Key Item)}
  {list : List Item}

theorem collect_eq_ok {item : Item} :
    collect link follow before item = .ok after ↔ ∃ middle,
      follow (link item) before = .ok middle ∧
        after = { middle with found := middle.found ++ [item] } := by
  unfold collect
  rw [FallibleLoop.bind_eq_ok]
  refine exists_congr fun middle => and_congr_right fun _ => ?_
  rw [Except.ok.injEq, eq_comm]

/-- The items of another key than the home are part of the walk like what is behind their links. -/
theorem part_collect_of_unselected
    (parts : ∀ item ∈ list, ∀ before after, follow (link item) before = .ok after →
      Part select home values before after)
    (unselected : list.filterMap select = [])
    (collected : list.foldlM (collect link follow) before = .ok after) :
    Part select home values before after := by
  induction list generalizing before with
  | nil =>
      cases collected
      exact .refl
  | cons item rest ih =>
      obtain ⟨itemParts, restParts⟩ := List.forall_mem_cons.mp parts
      obtain ⟨next, first, others⟩ := FallibleLoop.foldlM_cons_eq_ok.mp collected
      obtain ⟨middle, followed, rfl⟩ := collect_eq_ok.mp first
      have itemUnselected := List.filterMap_eq_nil_iff.mp unselected item List.mem_cons_self
      rw [List.filterMap_cons_none itemUnselected] at unselected
      exact ((itemParts _ _ followed).trans (part_append_of_unselected itemUnselected)).trans
        (ih restParts unselected others)

/-- The items of the home are selected in their order, and nothing behind their links is. -/
theorem selected_collect_of_seen
    (parts : ∀ item ∈ list, ∀ before after, follow (link item) before = .ok after →
      Part select home values before after)
    (seen : home ∈ before.seen)
    (collected : list.foldlM (collect link follow) before = .ok after) :
    (∀ key ∈ before.seen, key ∈ after.seen) ∧
      after.found.filterMap select = before.found.filterMap select ++ list.filterMap select := by
  induction list generalizing before with
  | nil =>
      cases collected
      exact ⟨fun _ member => member, (List.append_nil _).symm⟩
  | cons item rest ih =>
      obtain ⟨itemParts, restParts⟩ := List.forall_mem_cons.mp parts
      obtain ⟨next, first, others⟩ := FallibleLoop.foldlM_cons_eq_ok.mp collected
      obtain ⟨middle, followed, rfl⟩ := collect_eq_ok.mp first
      have part := itemParts _ _ followed
      have collectedSeen :
          home ∈ { middle with found := middle.found ++ [item] : Progress Key Item }.seen :=
        part.seen home seen
      obtain ⟨kept, found⟩ := ih restParts collectedSeen others
      refine ⟨fun key member => kept key (part.seen key member), ?_⟩
      rw [found, List.filterMap_append, part.selected_of_seen seen, List.append_assoc,
        ← List.filterMap_append, List.singleton_append]

end Loop

section Walk

variable [DecidableEq Key] {items : Key → List Item} {link : Item → Option Key}
  {circular : Key → Error} {valid : Key → Prop}

/-- Where every key that can be reached has no values except the home, a walk selects the values of
the home at most once. -/
theorem part_walk (closed : ∀ key next, valid key → Links items link key next → valid next)
    (only : ∀ key, valid key → (items key).filterMap select = [] ∨
      key = home ∧ (items key).filterMap select = values)
    {depth : Nat} {key : Option Key} (reached : ∀ start ∈ key, valid start)
    (walked : walk link items circular depth key before = .ok after) :
    Part select home values before after := by
  induction depth generalizing key before after with
  | zero => cases walked
  | succ depth ih =>
      cases key with
      | none =>
          cases walked
          exact .refl
      | some key =>
          have start := reached key rfl
          have parts : ∀ item ∈ items key, ∀ before after,
              walk link items circular depth (link item) before = .ok after →
                Part select home values before after := by
            intro item member before after followed
            exact ih (fun next linked => closed key next start ⟨item, member, linked⟩) followed
          unfold walk at walked
          split at walked
          · cases walked
          · next unseen =>
              have marked : Part select home values before
                  { before with seen := key :: before.seen } :=
                ⟨fun _ member => List.mem_cons_of_mem _ member, [], (List.append_nil _).symm,
                  .inl rfl⟩
              rcases only key start with unselected | ⟨rfl, selected⟩
              · exact marked.trans (part_collect_of_unselected parts unselected walked)
              · obtain ⟨kept, found⟩ :=
                  selected_collect_of_seen parts List.mem_cons_self walked
                refine ⟨fun other member => kept other (List.mem_cons_of_mem _ member), values, ?_,
                  .inr ⟨rfl, unseen, kept key List.mem_cons_self⟩⟩
                rw [found, selected]

/-- A whole walk selects the values of the home, or none. -/
theorem selected_walk (closed : ∀ key next, valid key → Links items link key next → valid next)
    (only : ∀ key, valid key → (items key).filterMap select = [] ∨
      key = home ∧ (items key).filterMap select = values)
    {depth : Nat} {start : Key} (reached : valid start)
    (walked : walk link items circular depth (some start) ⟨[], []⟩ = .ok after) :
    after.found.filterMap select = [] ∨ after.found.filterMap select = values := by
  have part := part_walk closed only (by rintro _ ⟨rfl⟩; exact reached) walked
  obtain ⟨gained, found, rfl | ⟨rfl, -⟩⟩ := part.gained
  · exact .inl found
  · exact .inr found

end Walk

end Selection

section Origin

variable {link : Item → Option Key} {holds : Progress Key Item → Prop}
  {before after : Progress Key Item}

variable [DecidableEq Key] {items : Key → List Item} {circular : Key → Error}

/-- A walk keeps what marking a key keeps, and collecting an item of a key. -/
theorem holds_walk
    (marks : ∀ progress key, holds progress → holds { progress with seen := key :: progress.seen })
    (collects : ∀ progress key, ∀ item ∈ items key, holds progress →
      holds { progress with found := progress.found ++ [item] })
    {depth : Nat} {key : Option Key} (start : holds before)
    (walked : walk link items circular depth key before = .ok after) : holds after := by
  induction depth generalizing key before after with
  | zero => cases walked
  | succ depth ih =>
      cases key with
      | none =>
          cases walked
          exact start
      | some key =>
          unfold walk at walked
          split at walked
          · cases walked
          · refine FallibleLoop.holds_of_foldlM ?_ (marks before key start) walked
            intro item member progress after known collected
            obtain ⟨middle, followed, rfl⟩ := collect_eq_ok.mp collected
            exact collects middle key item member (ih known followed)

/-- What was found are items of keys. -/
def Progress.Listed (items : Key → List Item) (progress : Progress Key Item) : Prop :=
  ∀ item ∈ progress.found, ∃ key, item ∈ items key

theorem listed_walk {depth : Nat} {key : Option Key}
    (walked : walk link items circular depth key ⟨[], []⟩ = .ok after) : after.Listed items := by
  have start : Progress.Listed items ⟨[], []⟩ := List.forall_mem_nil _
  refine holds_walk (fun _ _ known => known) ?_ start walked
  intro progress key item member known
  exact List.forall_mem_append.mpr ⟨known, List.forall_mem_singleton.mpr ⟨key, member⟩⟩

/-- The walk from a key whose items have no links finds these. -/
theorem walk_of_unlinked {depth : Nat} {key : Key} (unseen : key ∉ before.seen)
    (unlinked : ∀ item ∈ items key, link item = none) :
    walk link items circular (depth + 2) (some key) before =
      .ok ⟨key :: before.seen, before.found ++ items key⟩ := by
  have run (list : List Item) (progress : Progress Key Item)
      (unlinked : ∀ item ∈ list, link item = none) :
      list.foldlM (collect link (walk link items circular (depth + 1))) progress =
        .ok { progress with found := progress.found ++ list } := by
    induction list generalizing progress with
    | nil =>
        rw [List.append_nil]
        rfl
    | cons item rest ih =>
        obtain ⟨first, others⟩ := List.forall_mem_cons.mp unlinked
        refine FallibleLoop.foldlM_cons_eq_ok.mpr
          ⟨{ progress with found := progress.found ++ [item] }, ?_, ?_⟩
        · exact collect_eq_ok.mpr ⟨progress, first ▸ rfl, rfl⟩
        · rw [ih _ others, List.append_assoc, List.singleton_append]
  rw [walk, if_neg unseen]
  exact run (items key) { before with seen := key :: before.seen } unlinked

end Origin

section Route

variable (link : Item → Option Key) (items : Key → List Item)

/-- The keys in the order in which a walk would come to them if it never stopped. -/
def route : Nat → Option Key → List Key
  | 0, _ => []
  | _ + 1, none => []
  | depth + 1, some key => key :: (items key).flatMap fun item => route depth (link item)

/-- What following a route comes to: it is stopped exactly if the route repeats a key. -/
def Follows (keys seen : List Key) : Except (Failure Error) (Progress Key Item) → Prop
  | .ok after => keys.Nodup ∧ keys.Disjoint seen ∧
      ∀ key, key ∈ after.seen ↔ key ∈ keys ∨ key ∈ seen
  | .error (.stopped _) => ¬(keys.Nodup ∧ keys.Disjoint seen)
  | .error .unfinished => True

variable {link items} {before : Progress Key Item}

/-- A route is followed in parts, the second one from where the first one came to. -/
theorem Follows.append {first rest seen : List Key} {middle : Progress Key Item}
    {result : Except (Failure Error) (Progress Key Item)}
    (start : Follows first seen (.ok middle : Except (Failure Error) _))
    (follows : Follows rest middle.seen result) : Follows (first ++ rest) seen result := by
  obtain ⟨nodup, apart, come⟩ := start
  have split : rest.Disjoint middle.seen ↔ first.Disjoint rest ∧ rest.Disjoint seen := by
    simp only [List.Disjoint, come]
    grind
  have whole : (first ++ rest).Nodup ∧ (first ++ rest).Disjoint seen ↔
      rest.Nodup ∧ rest.Disjoint middle.seen := by
    rw [List.nodup_append', List.disjoint_append_left, split]
    exact ⟨fun ⟨⟨_, nodup, between⟩, _, apart⟩ => ⟨nodup, between, apart⟩,
      fun ⟨restNodup, between, restApart⟩ => ⟨⟨nodup, restNodup, between⟩, apart, restApart⟩⟩
  cases result with
  | error failure =>
      cases failure with
      | unfinished => trivial
      | stopped error => exact mt whole.mp follows
  | ok after =>
      obtain ⟨restNodup, restApart, restCome⟩ := follows
      obtain ⟨wholeNodup, wholeApart⟩ := whole.mpr ⟨restNodup, restApart⟩
      refine ⟨wholeNodup, wholeApart, fun key => ?_⟩
      rw [restCome, come, List.mem_append]
      exact or_left_comm.trans (or_assoc.symm)

theorem follows_collect
    {follow : Option Key → Progress Key Item → Except (Failure Error) (Progress Key Item)}
    {route : Item → List Key} {list : List Item}
    (follows : ∀ item progress, Follows (route item) progress.seen (follow (link item) progress)) :
    Follows (list.flatMap route) before.seen (list.foldlM (collect link follow) before) := by
  induction list generalizing before with
  | nil => exact ⟨List.nodup_nil, List.disjoint_nil_left _, fun key => by simp⟩
  | cons item rest ih =>
      rw [List.foldlM_cons, List.flatMap_cons]
      have first := follows item before
      cases followed : follow (link item) before with
      | error failure =>
          have failed : collect link follow before item = .error failure := by
            unfold collect
            rw [followed]
            rfl
          rw [failed]
          rw [followed] at first
          cases failure with
          | unfinished => trivial
          | stopped error =>
              rintro ⟨nodup, apart⟩
              exact first ⟨(List.nodup_append'.mp nodup).1, (List.disjoint_append_left.mp apart).1⟩
      | ok middle =>
          rw [collect_eq_ok.mpr ⟨middle, followed, rfl⟩]
          rw [followed] at first
          exact first.append ih

variable [DecidableEq Key] {circular : Key → Error}

theorem follows_walk {depth : Nat} {key : Option Key} :
    Follows (route link items depth key) before.seen
      (walk link items circular depth key before) := by
  induction depth generalizing key before with
  | zero => trivial
  | succ depth ih =>
      cases key with
      | none => exact ⟨List.nodup_nil, List.disjoint_nil_left _, fun key => by simp [route]⟩
      | some key =>
          unfold walk route
          by_cases seen : key ∈ before.seen
          · rw [if_pos seen]
            exact fun fresh => fresh.2 List.mem_cons_self seen
          · rw [if_neg seen, ← List.singleton_append]
            have start : Follows [key] before.seen
                (.ok { before with seen := key :: before.seen } : Except (Failure Error) _) :=
              ⟨List.nodup_singleton key, List.singleton_disjoint.mpr seen, fun other => by simp⟩
            exact start.append (follows_collect fun item progress => ih)

/-- A walk that goes deep enough ends exactly if its route does not repeat a key. -/
theorem exists_walk_iff {depth : Nat} {key : Option Key}
    (finished : walk link items circular depth key ⟨[], []⟩ ≠ .error .unfinished) :
    (∃ after, walk link items circular depth key ⟨[], []⟩ = .ok after) ↔
      (route link items depth key).Nodup := by
  have follows : Follows (route link items depth key) []
      (walk link items circular depth key ⟨[], []⟩) := follows_walk
  cases walked : walk link items circular depth key ⟨[], []⟩ with
  | error failure =>
      refine iff_of_false nofun fun nodup => ?_
      rw [walked] at follows finished
      cases failure with
      | unfinished => exact finished rfl
      | stopped error => exact follows ⟨nodup, List.disjoint_nil_right _⟩
  | ok after =>
      rw [walked] at follows
      exact iff_of_true ⟨after, rfl⟩ follows.1

end Route

section Depth

variable {link : Item → Option Key} {before after : Progress Key Item}

/-- Collecting is finished when following the links is, from wherever enough has been seen. -/
theorem collect_ne_unfinished
    {follow : Option Key → Progress Key Item → Except (Failure Error) (Progress Key Item)}
    {list : List Item} (seen : List Key)
    (finishes : ∀ key progress, (∀ key ∈ seen, key ∈ progress.seen) →
      follow key progress ≠ .error .unfinished)
    (keeps : ∀ key before after, follow key before = .ok after →
      ∀ key ∈ before.seen, key ∈ after.seen)
    (enough : ∀ key ∈ seen, key ∈ before.seen) :
    list.foldlM (collect link follow) before ≠ .error .unfinished := by
  induction list generalizing before with
  | nil => exact fun failed => nomatch failed
  | cons item rest ih =>
      rw [List.foldlM_cons]
      cases followed : follow (link item) before with
      | error failure =>
          have failed : collect link follow before item = .error failure := by
            unfold collect
            rw [followed]
            rfl
          rw [failed]
          rintro ⟨rfl⟩
          exact finishes _ _ enough followed
      | ok middle =>
          rw [collect_eq_ok.mpr ⟨middle, followed, rfl⟩]
          exact ih fun key member => keeps _ _ _ followed key (enough key member)

variable [DecidableEq Key] {items : Key → List Item} {circular : Key → Error}

theorem seen_walk {depth : Nat} {key : Option Key}
    (walked : walk link items circular depth key before = .ok after) :
    ∀ key ∈ before.seen, key ∈ after.seen := by
  intro home
  have part : Part (fun _ : Item => (none : Option Unit)) home [] before after :=
    part_walk (fun _ _ _ _ => trivial)
      (fun _ _ => .inl (List.filterMap_eq_nil_iff.mpr fun _ _ => rfl)) (fun _ _ => trivial) walked
  exact part.seen home

/-- A walk ends when it may go deeper than there are keys with items that it has not seen. -/
theorem walk_ne_unfinished {keys : Finset Key} (listed : ∀ key, items key ≠ [] → key ∈ keys)
    {depth : Nat} {key : Option Key}
    (enough : {key ∈ keys | key ∉ before.seen}.card < depth) :
    walk link items circular depth key before ≠ .error .unfinished := by
  induction depth generalizing key before with
  | zero => exact absurd enough (Nat.not_lt_zero _)
  | succ depth ih =>
      cases key with
      | none => exact fun failed => nomatch failed
      | some key =>
          unfold walk
          split
          · exact fun failed => nomatch failed
          · next unseen =>
              by_cases bare : items key = []
              · rw [bare]
                exact fun failed => nomatch failed
              · refine collect_ne_unfinished (key :: before.seen) ?_
                  (fun _ _ _ => seen_walk) (fun _ member => member)
                intro next progress more
                -- The key itself is one that the rest of the walk has seen.
                have fewer : {key ∈ keys | key ∉ progress.seen} ⊂
                    {key ∈ keys | key ∉ before.seen} := by
                  refine Finset.ssubset_iff_of_subset ?_ |>.mpr ⟨key, ?_, ?_⟩
                  · refine Finset.monotone_filter_right keys fun other _ unseen member => ?_
                    exact unseen (more other (List.mem_cons_of_mem _ member))
                  · exact Finset.mem_filter.mpr ⟨listed key bare, unseen⟩
                  · intro member
                    exact (Finset.mem_filter.mp member).2 (more key List.mem_cons_self)
                exact ih ((Finset.card_lt_card fewer).trans_le (Nat.lt_succ_iff.mp enough))

end Depth

end Foundation.LinkWalk
