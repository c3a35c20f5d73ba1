import Mathlib.Data.List.Rotate

/-!
# The cursor of the round-robin balancer

The balancer keeps one cursor for each hash of a query. It is clamped to the peers of the call,
which may be other ones than in the call before, and moves on by one, from the last peer to the
first. Calls for other hashes leave it alone. As long as the peers stay the same, the selections
therefore go around the list, starting anywhere.
-/

namespace Apicast.RoundRobin

variable {Peer Hash : Type*}

/-- The converted servers of a query. -/
structure Peers (Peer Hash : Type*) where
  peers : List Peer
  hash : Option Hash
  /-- A cursor set by hand. -/
  cur : Option Int

/-- A call of the balancer, with what `math.random` draws from one to the number of peers. -/
structure Call (Peer Hash : Type*) extends Peers Peer Hash where
  random : Nat
  drawn : peers ≠ [] → 1 ≤ random ∧ random ≤ peers.length

/-- The cursors that are in the cache. -/
abbrev Cursor (Hash : Type*) := Hash → Option Nat

/-- A peer of a table, where positions count from one. -/
def peerAt (peers : List Peer) (position : Nat) : Option Peer :=
  if position = 0 then none else peers[position - 1]?

/-- `balancer_random.call` -/
def randomCall (call : Call Peer Hash) : Option Peer × Nat :=
  (peerAt call.peers call.random, call.random)

/-- The clamped position of the peer to select. -/
def index (cursor : Option Nat) (call : Call Peer Hash) : Nat :=
  let position := (cursor.map Int.ofNat).getD (call.cur.getD call.random)
  (min (max position 0) call.peers.length).toNat

/-- `_M.call` -/
def call [DecidableEq Hash] (cursor : Cursor Hash) (call : Call Peer Hash) :
    Except String (Option Peer × Nat) × Cursor Hash :=
  if call.peers.length = 0 then (.error "empty peers", cursor)
  else
    match call.hash with
    | none => (.ok (randomCall call), cursor)
    | some hash =>
        let n := call.peers.length
        let i := index (cursor hash) call
        (.ok (peerAt call.peers i, i), Function.update cursor hash (some (i % n + 1)))

/-- What happens to the cursors. The cache may drop any of them at any time. -/
inductive Event (Peer Hash : Type*)
  | call (call : Call Peer Hash)
  | evict (hash : Hash)

section Runs

variable [DecidableEq Hash]

def step (cursor : Cursor Hash) : Event Peer Hash → Cursor Hash
  | .call request => (call cursor request).2
  | .evict hash => Function.update cursor hash none

/-- The cursors after a run. -/
def after (cursor : Cursor Hash) (events : List (Event Peer Hash)) : Cursor Hash :=
  events.foldl step cursor

/-- The cursors of a fresh cache (`_M.reset`). -/
def reset : Cursor Hash := fun _ => none

/-- The successful calls for one hash in a run, each with what it returned. -/
def selections (hash : Hash) : Cursor Hash → List (Event Peer Hash) → List (Option Peer × Nat)
  | _, [] => []
  | cursor, event :: events =>
      let rest := selections hash (step cursor event) events
      match event with
      | .call request =>
          match (call cursor request).1 with
          | .ok selected => if request.hash = some hash then selected :: rest else rest
          | .error _ => rest
      | .evict _ => rest

end Runs

/-- The call is for the given hash and peers, and sets no cursor. -/
structure Call.For (call : Call Peer Hash) (hash : Hash) (peers : List Peer) : Prop where
  hash : call.hash = some hash
  peers : call.peers = peers
  cur : call.cur = none

/-- Whatever happens to the cursor of the hash is a call with these peers. -/
def Event.Keeps (hash : Hash) (peers : List Peer) : Event Peer Hash → Prop
  | .call request => request.hash = some hash → request.For hash peers
  | .evict evicted => evicted ≠ hash

/-- The number of calls for a hash. -/
def calls [DecidableEq Hash] (hash : Hash) : List (Event Peer Hash) → Nat
  | [] => 0
  | .call request :: events => calls hash events + if request.hash = some hash then 1 else 0
  | .evict _ :: events => calls hash events

/-- The peers with their positions. -/
def positions (peers : List Peer) : List (Option Peer × Nat) :=
  (peers.zipIdx 1).map fun (peer, position) => (some peer, position)

section Cursors

variable {call : Call Peer Hash} {hash : Hash} {peers : List Peer} {cursor : Cursor Hash}

@[simp] theorem length_positions : (positions peers).length = peers.length := by simp [positions]

theorem getElem_positions {position : Nat} (inside : position < (positions peers).length) :
    (positions peers)[position] = (peerAt peers (position + 1), position + 1) := by
  have bound : position < peers.length := (@length_positions _ peers) ▸ inside
  simp [positions, peerAt, List.getElem?_eq_getElem bound, Nat.add_comm]

/-- No cursor is before the first peer. -/
def Positive (cursor : Cursor Hash) : Prop := ∀ hash position, cursor hash = some position →
  1 ≤ position

/-- A positive cursor is clamped to the last peer at most, and a drawn one is inside. -/
theorem Call.For.index_eq (request : call.For hash peers) {entry : Option Nat}
    (positive : ∀ position, entry = some position → 1 ≤ position) (nonempty : peers ≠ []) :
    1 ≤ index entry call ∧ index entry call ≤ peers.length ∧
      ∀ position, entry = some position → position ≤ peers.length →
        index entry call = position := by
  have size : 1 ≤ peers.length := List.length_pos_iff.mpr nonempty
  have drawn := call.drawn (request.peers ▸ nonempty)
  rw [request.peers] at drawn
  unfold index
  rw [request.cur, request.peers]
  cases entry with
  | none => simp; omega
  | some position =>
      have := positive position rfl
      simp
      omega

variable [DecidableEq Hash]

/-- What a call with peers and a hash does. -/
theorem Call.For.call_eq (request : call.For hash peers) (nonempty : peers ≠ []) :
    RoundRobin.call cursor call =
      (.ok (peerAt peers (index (cursor hash) call), index (cursor hash) call),
        Function.update cursor hash (some (index (cursor hash) call % peers.length + 1))) := by
  have size : peers.length ≠ 0 := mt List.length_eq_zero_iff.mp nonempty
  unfold RoundRobin.call
  rw [request.peers, if_neg size, request.hash]

/-- A call writes the cursor of its own hash, if it writes at all. -/
theorem call_writes (cursor : Cursor Hash) (request : Call Peer Hash) :
    (RoundRobin.call cursor request).2 = cursor ∨ ∃ own position, request.hash = some own ∧
      (RoundRobin.call cursor request).2 =
        Function.update cursor own (some (position % request.peers.length + 1)) := by
  unfold RoundRobin.call
  split
  · exact .inl rfl
  · cases named : request.hash with
    | none => exact .inl rfl
    | some own => exact .inr ⟨own, _, rfl, rfl⟩

/-- A call leaves the cursors of other hashes alone. -/
theorem call_of_ne {other : Call Peer Hash} (different : other.hash ≠ some hash) :
    (RoundRobin.call cursor other).2 hash = cursor hash := by
  rcases call_writes cursor other with kept | ⟨own, position, named, written⟩
  · rw [kept]
  · rw [written, Function.update_of_ne]
    rintro rfl
    exact different named

theorem Positive.step (positive : Positive cursor) (event : Event Peer Hash) :
    Positive (step cursor event) := by
  intro hash position entry
  cases event with
  | evict evicted =>
      by_cases same : hash = evicted
      · subst same
        simp [RoundRobin.step] at entry
      · exact positive hash position (by simpa [RoundRobin.step, same] using entry)
  | call request =>
      rcases call_writes cursor request with kept | ⟨own, written, -, wrote⟩
      · exact positive hash position (by rwa [RoundRobin.step, kept] at entry)
      · rw [RoundRobin.step, wrote] at entry
        by_cases same : hash = own
        · subst same
          rw [Function.update_self, Option.some.injEq] at entry
          omega
        · exact positive hash position (by rwa [Function.update_of_ne same] at entry)

/-- No run from a fresh cache moves a cursor before the first peer. -/
theorem positive_after (events : List (Event Peer Hash)) : Positive (after reset events) := by
  have kept : ∀ (cursor : Cursor Hash), Positive cursor → Positive (after cursor events) := by
    induction events with
    | nil => exact fun _ positive => positive
    | cons event events ih => exact fun _ positive => ih _ (positive.step event)
  exact kept reset fun hash position entry => by simp [reset] at entry

/-- The first items of a list that goes around. -/
theorem take_rotate_succ {Item : Type*} {items : List Item} {start count : Nat}
    (inside : start < items.length) (bound : count < items.length) :
    (items.rotate start).take (count + 1) =
      items[start] :: (items.rotate (start + 1)).take count := by
  have head : (items.rotate start)[0]? = some items[start] := by
    rw [List.getElem?_rotate (by omega), Nat.zero_add, Nat.mod_eq_of_lt inside,
      List.getElem?_eq_getElem inside]
  obtain ⟨tail, shape⟩ : ∃ tail, items.rotate start = items[start] :: tail := by
    cases rotated : items.rotate start with
    | nil => simp [rotated] at head
    | cons first tail =>
        rw [rotated, List.getElem?_cons_zero, Option.some.injEq] at head
        exact ⟨tail, by rw [head]⟩
  have size : tail.length + 1 = items.length := by
    have lengths := congrArg List.length shape
    rw [List.length_rotate, List.length_cons] at lengths
    exact lengths.symm
  rw [← List.rotate_rotate, shape, List.rotate_cons_succ, List.rotate_zero, List.take_succ_cons,
    List.take_append_of_le_length (by omega)]

/-- The selections of a run go around the peers, from the cursor on when it is inside. -/
theorem selections_eq (nonempty : peers ≠ []) {events : List (Event Peer Hash)}
    (keeps : ∀ event ∈ events, event.Keeps hash peers) (few : calls hash events ≤ peers.length)
    (positive : Positive cursor) :
    ∃ start < peers.length,
      selections hash cursor events = ((positions peers).rotate start).take (calls hash events) ∧
      ∀ position, cursor hash = some position → position ≤ peers.length →
        start + 1 = position := by
  induction events generalizing cursor with
  | nil =>
      have size : 1 ≤ peers.length := List.length_pos_iff.mpr nonempty
      cases entry : cursor hash with
      | none => exact ⟨0, size, by simp [selections, calls], fun _ found => by cases found⟩
      | some position =>
          refine ⟨min (position - 1) (peers.length - 1), by omega, by simp [selections, calls],
            fun _ found inside => ?_⟩
          cases found
          have := positive hash position entry
          omega
  | cons event events ih =>
      have rest := fun later member => keeps later (List.mem_cons_of_mem _ member)
      have first := keeps event List.mem_cons_self
      cases event with
      | evict evicted =>
          obtain ⟨start, inside, selected, continues⟩ :=
            ih rest few (positive.step (.evict evicted))
          refine ⟨start, inside, selected, fun position entry => continues position ?_⟩
          rw [step, Function.update_of_ne (Ne.symm first), entry]
      | call request =>
          by_cases own : request.hash = some hash
          · have count : calls hash (.call request :: events) = calls hash events + 1 := by
              simp [calls, own]
            rw [count] at few ⊢
            have made := first own
            obtain ⟨atLeast, atMost, unclamped⟩ :=
              made.index_eq (fun position entry => positive hash position entry) nonempty
            obtain ⟨start, inside, selected, continues⟩ :=
              ih rest (by omega) (positive.step (.call request))
            have moved : step cursor (.call request) hash =
                some (index (cursor hash) request % peers.length + 1) := by
              rw [step, made.call_eq nonempty]
              exact Function.update_self ..
            have next := continues _ moved (Nat.mod_lt _ (by omega))
            refine ⟨index (cursor hash) request - 1, by omega, ?_, fun position entry inside => ?_⟩
            · have around : (positions peers).rotate start =
                  (positions peers).rotate (index (cursor hash) request - 1 + 1) := by
                rw [Nat.sub_add_cancel atLeast, ← List.rotate_mod _ (index _ _), length_positions,
                  ← Nat.succ.inj next]
              rw [take_rotate_succ (by rw [length_positions]; omega)
                  (by rw [length_positions]; omega), ← around, ← selected, getElem_positions,
                Nat.sub_add_cancel atLeast]
              simp only [selections, made.call_eq nonempty, own, ↓reduceIte]
            · have := unclamped position entry inside
              omega
          · have count : calls hash (.call request :: events) = calls hash events := by
              simp [calls, own]
            rw [count] at few ⊢
            obtain ⟨start, inside, selected, continues⟩ :=
              ih rest few (positive.step (.call request))
            refine ⟨start, inside, ?_, fun position entry => continues position ?_⟩
            · rw [← selected, selections]
              cases (RoundRobin.call cursor request).1 <;> simp [own]
            · rw [step, call_of_ne own, entry]

end Cursors

section Results

variable [DecidableEq Hash]

/-- **Bounds and fairness.** After any run, a call with peers, a hash and no cursor of its own
selects one of its peers by its position. Any further run in which the calls for a hash all have
the same peers, and are as many as these, selects each of the peers once. -/
theorem selects_inBounds_fairly (past : List (Event Peer Hash)) (hash : Hash) (peers : List Peer)
    (nonempty : peers ≠ []) :
    (∀ request : Call Peer Hash, request.For hash peers →
      ∃ peer position, (call (after reset past) request).1 = .ok (some peer, position) ∧
        1 ≤ position ∧ position ≤ peers.length ∧ peerAt peers position = some peer) ∧
    ∀ events : List (Event Peer Hash), (∀ event ∈ events, event.Keeps hash peers) →
      calls hash events = peers.length →
      (selections hash (after reset past) events).Perm (positions peers) := by
  have positive := positive_after past
  constructor
  · intro request made
    obtain ⟨atLeast, atMost, -⟩ :=
      made.index_eq (fun position entry => positive hash position entry) nonempty
    have found : peerAt peers (index (after reset past hash) request) =
        some (peers.get ⟨index (after reset past hash) request - 1, by omega⟩) := by
      unfold peerAt
      rw [if_neg (by omega), List.getElem?_eq_getElem]
      rfl
    refine ⟨_, index (after reset past hash) request, ?_, atLeast, atMost, found⟩
    rw [made.call_eq nonempty, found]
  · intro events keeps enough
    obtain ⟨start, inside, selected, -⟩ := selections_eq nonempty keeps enough.le positive
    rw [selected, enough, List.take_of_length_le (by simp)]
    exact List.rotate_perm _ _

/-- A call without a cursor of its own, where one is drawn. -/
def Call.plain (peers : List Peer) (hash : Hash) : Call Peer Hash where
  peers := peers
  hash := some hash
  cur := none
  random := 1
  drawn nonempty := ⟨le_rfl, List.length_pos_iff.mpr nonempty⟩

/-- Two of three peers are left when the cursor stands at the third one. -/
theorem selects_inBounds_fairly_shrunk :
    let shorter := Call.plain ["10.0.0.1", "10.0.0.2"] 7
    let longer := Call.plain ["10.0.0.1", "10.0.0.2", "10.0.0.3"] 7
    (selections 7 (after reset [.call longer, .call longer]) [.call shorter, .call shorter]).Perm
      (positions ["10.0.0.1", "10.0.0.2"]) := by
  refine (selects_inBounds_fairly _ 7 ["10.0.0.1", "10.0.0.2"] (by simp)).2 _ ?_ (by decide)
  intro event member
  simp only [List.mem_cons, List.not_mem_nil, or_false, or_self] at member
  subst member
  exact fun _ => ⟨rfl, rfl, rfl⟩

end Results

end Apicast.RoundRobin
