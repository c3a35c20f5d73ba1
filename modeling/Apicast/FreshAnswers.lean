import Apicast.ResolverCache

/-!
# Cached answers and fresh ones

What a lookup finds right after an answer was saved, and what the resolver makes of the answer
itself. The servers are the same, unless the lookup comes to an entry that was in the cache before.
It does when the answer leaves nothing under the queried name, or when a canonical name, which is
looked up without a type, is itself the key of an entry.
-/

namespace Apicast.ResolverCache

open Foundation

section Agreement

variable {Cache : Type*}

/-- The servers of a lookup right after an answer was saved, if it is valid. -/
def serversAfterSaving (lru : LruCache Cache) (prior : Cache) (qname : String) (qtype : Nat)
    (answers : List Answer) (depth : Nat) (port : Option Nat) : Option (List Server) :=
  (save lru prior qname qtype answers).bind fun saved =>
    match get lru false depth saved.1 (cacheKey qname qtype) with
    | .error _ => none
    | .ok (reply, _) =>
        if validAnswers reply then some (convertAnswers reply.answers port) else none

/-- The servers of a valid lookup right after an answer was saved are those of the answer itself. -/
def AgreesWithFresh (lru : LruCache Cache) (prior : Cache) (qname : String) (qtype : Nat)
    (answers : List Answer) : Prop :=
  ∀ depth port servers,
    serversAfterSaving lru prior qname qtype answers depth port = some servers →
      servers = convertAnswers answers port

/-- The records that an answer leaves under a key. -/
def writtenAnswers (qname : String) (qtype : Nat) (answers : List Answer) (key : String) :
    List Answer :=
  (written qname qtype ((compactAnswers answers).getD []) key).elim [] Packed.answers

/-- The keys that a lookup comes to by the records that an answer leaves. -/
def Asked (qname : String) (qtype : Nat) (answers : List Answer) : String → Prop :=
  Relation.ReflTransGen (LinkWalk.Links (writtenAnswers qname qtype answers) Answer.cname)
    (cacheKey qname qtype)

/-- A lookup comes to no entry that was there before, and that the answer leaves there. -/
def AsksNothingPrior (lru : LruCache Cache) (prior : Cache) (qname : String) (qtype : Nat)
    (answers : List Answer) : Prop :=
  ∀ key, Asked qname qtype answers key → writtenAnswers qname qtype answers key = [] →
    lru.get prior key = none

variable {lru : LruCache Cache} {prior : Cache} {qname : String} {qtype : Nat}
  {answers : List Answer} {compact : List Packed}

theorem convertAnswers_eq_nil {port : Option Nat} :
    convertAnswers answers port = [] ↔ answers.filterMap Answer.address = [] := by
  unfold convertAnswers newServer
  rw [List.filterMap_eq_nil_iff, List.filterMap_eq_nil_iff]
  simp only [Option.map_eq_none_iff]

theorem addresses_ne_nil {reply : Answers} {addresses : List String} (valid : validAnswers reply)
    (found : reply.addresses = some addresses) : addresses ≠ [] := by
  unfold validAnswers at valid
  rw [found, Option.all_some, Bool.and_eq_true] at valid
  exact of_decide_eq_true valid.2

/-- The servers of an answer are those of the group of their owner. -/
theorem convertAnswers_filter_owner {owner : String} {port : Option Nat} {name : Option String}
    (own : ∀ answer ∈ answers, answer.address.isSome → answer.owner = some owner) :
    convertAnswers (answers.filter fun answer => answer.owner = name) port =
      if name = some owner then convertAnswers answers port else [] := by
  induction answers with
  | nil => exact (ite_self _).symm
  | cons answer rest ih =>
      obtain ⟨first, others⟩ := List.forall_mem_cons.mp own
      have rest := ih others
      unfold convertAnswers at rest ⊢
      rw [List.filter_cons, List.filterMap_cons]
      cases converted : newServer port answer with
      | none =>
          rw [← rest]
          split
          · rw [List.filterMap_cons_none converted]
          · rfl
      | some server =>
          have address : answer.address.isSome := by
            obtain ⟨address, present, -⟩ := Option.map_eq_some_iff.mp converted
            exact present ▸ rfl
          rw [first address]
          by_cases same : name = some owner
          · rw [if_pos same] at rest ⊢
            rw [if_pos (decide_eq_true same.symm), List.filterMap_cons_some converted, rest]
          · rw [if_neg same] at rest ⊢
            rw [if_neg fun equal => same (of_decide_eq_true equal).symm, rest]

/-- The group of one name is stored under one key. -/
theorem Compacts.home (compacts : Compacts answers compact) (owner : String) :
    ∃ home, ∀ packed ∈ compact, packed.name = some owner → ∀ key,
      storeKey qname qtype packed = some key → key = home := by
  by_cases present : ∃ packed ∈ compact, packed.name = some owner
  · obtain ⟨first, member, named⟩ := present
    refine ⟨(storeKey qname qtype first).getD "", ?_⟩
    intro packed other same key keyed
    have equal : packed = first :=
      List.inj_on_of_nodup_map compacts.nodup other member (same.trans named.symm)
    rw [← equal, keyed]
    rfl
  · refine ⟨"", fun packed member named => ?_⟩
    exact absurd ⟨packed, member, named⟩ present

/-- In the cache after saving, the keys that a lookup comes to have what the answer left there. -/
theorem cached_storeAll (last : lru.FindsLast) (dns : DnsAnswers qtype answers)
    (compacted : compactAnswers answers = some compact)
    (alone : AsksNothingPrior lru prior qname qtype answers) {key : String}
    (asked : Asked qname qtype answers key) :
    cached lru (storeAll lru qname qtype compact prior).1 key = [] ∨
      cached lru (storeAll lru qname qtype compact prior).1 key =
        writtenAnswers qname qtype answers key := by
  have left : writtenAnswers qname qtype answers key =
      (written qname qtype compact key).elim [] Packed.answers := by
    unfold writtenAnswers
    rw [compacted]
    rfl
  unfold cached
  cases get : lru.get (storeAll lru qname qtype compact prior).1 key with
  | none => exact .inl rfl
  | some packed =>
      have storable : ∀ packed ∈ compact, (storeKey qname qtype packed).isSome :=
        dns.storeKey_isSome (compacts_compactAnswers compacted)
      rcases get_storeAll last storable get with latest | ⟨unwritten, before⟩
      · rw [left, latest]
        exact .inr rfl
      · have nothing := alone key asked (by rw [left, unwritten]; rfl)
        rw [before] at nothing
        cases nothing

/-- An answer leaves no servers under a key, or it leaves all of its servers, under one key. -/
theorem convertAnswers_writtenAnswers (dns : DnsAnswers qtype answers)
    (compacted : compactAnswers answers = some compact) (port : Option Nat) :
    ∃ home, ∀ key, convertAnswers (writtenAnswers qname qtype answers key) port = [] ∨
      key = home ∧ convertAnswers (writtenAnswers qname qtype answers key) port =
        convertAnswers answers port := by
  have compacts := compacts_compactAnswers compacted
  obtain ⟨owner, own⟩ := dns.owner_of_address
  obtain ⟨home, only⟩ : ∃ home, ∀ packed ∈ compact, packed.name = some owner → ∀ key,
      storeKey qname qtype packed = some key → key = home := compacts.home owner
  refine ⟨home, fun key => ?_⟩
  unfold writtenAnswers
  rw [compacted, Option.getD_some]
  cases latest : written qname qtype compact key with
  | none => exact .inl rfl
  | some packed =>
      obtain ⟨member, keyed⟩ := written_eq_some latest
      change convertAnswers packed.answers port = [] ∨
        key = home ∧ convertAnswers packed.answers port = _
      rw [compacts.answers packed member, convertAnswers_filter_owner own]
      by_cases named : packed.name = some owner
      · rw [if_pos named]
        exact .inr ⟨only packed member named key keyed, rfl⟩
      · exact .inl (if_neg named)

/-- The links of the cache after saving are among those that the answer left. -/
theorem asked_of_links (last : lru.FindsLast) (dns : DnsAnswers qtype answers)
    (compacted : compactAnswers answers = some compact)
    (alone : AsksNothingPrior lru prior qname qtype answers) {key next : String}
    (asked : Asked qname qtype answers key)
    (links : LinkWalk.Links (cached lru (storeAll lru qname qtype compact prior).1) Answer.cname
      key next) : Asked qname qtype answers next := by
  obtain ⟨answer, member, linked⟩ := links
  rcases cached_storeAll last dns compacted alone asked with empty | same
  · rw [empty] at member
    cases member
  · exact asked.tail ⟨answer, same ▸ member, linked⟩

/-- A lookup comes to the servers of the answer under one key at most, and to no others. -/
theorem convertAnswers_cached_storeAll (last : lru.FindsLast) (dns : DnsAnswers qtype answers)
    (compacted : compactAnswers answers = some compact)
    (alone : AsksNothingPrior lru prior qname qtype answers) (port : Option Nat) :
    ∃ home, ∀ key, Asked qname qtype answers key →
      convertAnswers (cached lru (storeAll lru qname qtype compact prior).1 key) port = [] ∨
        key = home ∧ convertAnswers (cached lru (storeAll lru qname qtype compact prior).1 key)
          port = convertAnswers answers port := by
  obtain ⟨home, leaves⟩ : ∃ home, ∀ key,
      convertAnswers (writtenAnswers qname qtype answers key) port = [] ∨
        key = home ∧ convertAnswers (writtenAnswers qname qtype answers key) port =
          convertAnswers answers port := convertAnswers_writtenAnswers dns compacted port
  refine ⟨home, fun key asked => ?_⟩
  rcases cached_storeAll last dns compacted alone asked with empty | same
  · rw [empty]
    exact .inl rfl
  · rw [same]
    exact leaves key

/-- A valid lookup right after an answer was saved gives the servers of the answer, in their order,
as long as it comes to no entry from before. -/
theorem agreesWithFresh_of_asksNothingPrior {Cache : Type*} (lru : LruCache Cache)
    (last : lru.FindsLast) (prior : Cache) (qname : String) (qtype : Nat) (answers : List Answer)
    (dns : DnsAnswers qtype answers) (alone : AsksNothingPrior lru prior qname qtype answers) :
    AgreesWithFresh lru prior qname qtype answers := by
  intro depth port servers looked
  obtain ⟨compact, compacted, saves⟩ := save_eq dns
  unfold serversAfterSaving at looked
  rw [saves, Option.bind_some, get_eq_walk] at looked
  cases walked : LinkWalk.walk Answer.cname
      (cached lru (storeAll lru qname qtype compact prior).1) circularReferenceError depth
      (some (cacheKey qname qtype)) ⟨[], []⟩ with
  | error failure =>
      rw [walked] at looked
      cases looked
  | ok progress =>
      rw [walked] at looked
      obtain ⟨valid, converted⟩ := Option.ite_none_right_eq_some.mp looked
      rw [← Option.some.inj converted]
      obtain ⟨home, only⟩ := convertAnswers_cached_storeAll last dns compacted alone port
      have selected := LinkWalk.selected_walk
        (fun key next => asked_of_links last dns compacted alone) only .refl walked
      rcases selected with none | all
      · exact absurd (convertAnswers_eq_nil.mp none) (addresses_ne_nil valid rfl)
      · exact all

end Agreement

section Recent

structure Entry where
  key : String
  value : Packed
  expire : Option Int
  deriving DecidableEq, Repr

/-- The entries at a moment, the ones that were set last first. -/
structure Recent where
  now : Int
  entries : List Entry
  deriving DecidableEq, Repr

def Recent.Fresh (cache : Recent) (entry : Entry) : Prop := ∀ expire ∈ entry.expire,
  cache.now ≤ expire

instance (cache : Recent) (entry : Entry) : Decidable (cache.Fresh entry) :=
  inferInstanceAs (Decidable (∀ expire ∈ entry.expire, cache.now ≤ expire))

/-- A cache that drops the entries that were set first when it is full. -/
def recent (capacity : Nat) : LruCache Recent where
  get cache key := do
    let entry ← cache.entries.find? (·.key = key)
    if cache.Fresh entry then some entry.value else none
  getStale cache key := do
    let entry ← cache.entries.find? (·.key = key)
    if cache.Fresh entry then none else some entry.value
  set cache key value ttl := { cache with
    entries := (⟨key, value, ttl.map (cache.now + ·)⟩ ::
      cache.entries.filter (·.key ≠ key)).take capacity }

theorem recent_findsLast (capacity : Nat) : (recent capacity).FindsLast := by
  intro cache key value ttl other found get
  obtain ⟨entry, present, fresh⟩ := Option.bind_eq_some_iff.mp get
  have front := List.take_prefix capacity (⟨key, value, ttl.map (cache.now + ·)⟩ ::
    cache.entries.filter (·.key ≠ key))
  have whole := front.find?_eq_some present
  by_cases same : other = key
  · rw [if_pos same]
    have first : (⟨key, value, ttl.map (cache.now + ·)⟩ : Entry) = entry := by
      rw [List.find?_cons, decide_eq_true same.symm] at whole
      exact Option.some.inj whole
    subst first
    exact (Option.some.inj (Option.ite_none_right_eq_some.mp fresh).2).symm
  · rw [if_neg same]
    rw [List.find?_cons_of_neg (fun equal => same (of_decide_eq_true equal).symm),
      List.find?_filter] at whole
    refine Option.bind_eq_some_iff.mpr ⟨entry, ?_, fresh⟩
    rw [← whole]
    congr 1
    funext entry
    by_cases equal : entry.key = other
    · simp only [equal, same, decide_true, decide_not, decide_false, Bool.not_false, and_self]
    · simp only [equal, decide_false, Bool.false_eq_true, and_false]

end Recent

section Examples

def addressRecord (name address : String) : Answer where
  name := some name
  address := some address
  cname := none
  type := some 1
  ttl := 59
  port := none

def cnameRecord (name cname : String) : Answer where
  name := some name
  address := none
  cname := some cname
  type := some typeCname
  ttl := 299
  port := none

/-- A cache with one group of one address. -/
def holding (key name address : String) : Recent where
  now := 0
  entries := [{
    key
    value := {
      answers := [addressRecord name address]
      name := some name
      ttl := 59
      type := some 1 }
    expire := some 59 }]

/-- Two canonical names, and the two addresses of the second one. -/
def chainAnswers : List Answer :=
  [cnameRecord "www.example.com" "elb.example.com",
    cnameRecord "elb.example.com" "us-east-1.example.com",
    addressRecord "us-east-1.example.com" "192.0.2.1",
    addressRecord "us-east-1.example.com" "192.0.2.2"]

/-- The lookup of the first name in the chain comes to the addresses at once. -/
theorem asksNothingPrior_chain (prior : Recent) :
    AsksNothingPrior (recent 1000) prior "www.example.com" 1 chainAnswers := by
  have unlinked : ∀ answer ∈ writtenAnswers "www.example.com" 1 chainAnswers
      (cacheKey "www.example.com" 1), answer.cname = none := by decide +kernel
  intro key asked empty
  have only : key = cacheKey "www.example.com" 1 := by
    clear empty
    induction asked with
    | refl => rfl
    | tail _ link ih =>
        obtain ⟨answer, member, linked⟩ := link
        rw [ih] at member
        rw [unlinked answer member] at linked
        cases linked
  rw [only] at empty
  exact absurd empty (by decide +kernel)

/-- The chain is saved over an address from before. -/
theorem agreesWithFresh_chain :
    AgreesWithFresh (recent 1000) (holding "www.example.com:1" "www.example.com" "192.0.2.9")
        "www.example.com" 1 chainAnswers ∧
      serversAfterSaving (recent 1000)
          (holding "www.example.com:1" "www.example.com" "192.0.2.9") "www.example.com" 1
          chainAnswers 2 (some 80) =
        some [⟨"192.0.2.1", 59, some 80⟩, ⟨"192.0.2.2", 59, some 80⟩] :=
  ⟨agreesWithFresh_of_asksNothingPrior (recent 1000) (recent_findsLast 1000) _ "www.example.com" 1
    chainAnswers ⟨by decide, "us-east-1.example.com", by decide⟩ (asksNothingPrior_chain _),
    by decide +kernel⟩

/-- An answer for a search domain has only a canonical name, and the addresses from before stay. Or
a canonical name is the key of other addresses. -/
theorem not_agreesWithFresh_prior :
    DnsAnswers 1 [cnameRecord "www.example.com" "web.example.com"] ∧
      ¬AgreesWithFresh (recent 1000) (holding "www:1" "www.example.com" "192.0.2.9") "www" 1
        [cnameRecord "www.example.com" "web.example.com"] ∧
    DnsAnswers 1 [addressRecord "web" "192.0.2.1", cnameRecord "www" "alias:1"] ∧
      ¬AgreesWithFresh (recent 1000) (holding "alias:1" "alias" "192.0.2.9") "www" 1
        [addressRecord "web" "192.0.2.1", cnameRecord "www" "alias:1"] := by
  refine ⟨⟨by decide, "", by decide⟩, ?_, ⟨by decide, "web", by decide⟩, ?_⟩
  · intro agrees
    exact absurd (agrees 2 none [⟨"192.0.2.9", 59, none⟩] (by decide +kernel)) (by decide +kernel)
  · intro agrees
    exact absurd (agrees 3 none [⟨"192.0.2.9", 59, none⟩] (by decide +kernel)) (by decide +kernel)

end Examples

end Apicast.ResolverCache
