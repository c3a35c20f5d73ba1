import Apicast.Foundation.LinkWalk

/-!
# The cache of the DNS resolver

`resty/resolver/cache.lua`, and what `resty/resolver.lua` makes of answers. An answer is saved in
groups of records of one name. The group of the addresses is found under the queried name, and the
other ones under their own names. Reading the cache follows the canonical names of the records.
-/

namespace Apicast.ResolverCache

open Foundation

/-- A record of a DNS answer. -/
structure Answer where
  name : Option String
  address : Option String
  cname : Option String
  type : Option Nat
  ttl : Int
  port : Option Nat
  deriving DecidableEq, Repr

/-- The records of one name. -/
structure Packed where
  answers : List Answer
  name : Option String
  ttl : Int
  type : Option Nat
  deriving DecidableEq, Repr

/-- What `resty.lrucache` offers. An entry that is expired is still seen as a stale one. -/
structure LruCache (Cache : Type*) where
  get (cache : Cache) (key : String) : Option Packed
  getStale (cache : Cache) (key : String) : Option Packed
  set (cache : Cache) (key : String) (value : Packed) (ttl : Option Int) : Cache

/-- A value is found under the key it was last set for, unless it is expired or evicted. -/
def LruCache.FindsLast {Cache : Type*} (lru : LruCache Cache) : Prop :=
  ∀ cache key value ttl other found, lru.get (lru.set cache key value ttl) other = some found →
    if other = key then found = value else lru.get cache other = some found

section Saving

/-- The name of a record, which is its address when it has no name. -/
def Answer.owner (server : Answer) : Option String := server.name.or server.address

/-- Add a record to a group. -/
def Packed.add (packed : Packed) (server : Answer) : Packed :=
  { packed with answers := packed.answers ++ [server], ttl := min packed.ttl server.ttl }

/-- Add a record to the group of its name. -/
def pack (name : String) (server : Answer) (compact : List Packed) : List Packed :=
  if compact.any (·.name = some name) then
    compact.map fun packed => if packed.name = some name then packed.add server else packed
  else
    compact ++ [{ answers := [server], name := some name, ttl := server.ttl, type := server.type }]

/-- `compact_answers`, which raises an error for a record without any name. -/
def compactAnswers (servers : List Answer) : Option (List Packed) :=
  servers.foldlM (fun compact server => server.owner.map fun name => pack name server compact) []

/-- The key of a type of records of a name. -/
def cacheKey (name : String) (qtype : Nat) : String := name ++ ":" ++ toString qtype

/-- The key that a group is stored under, if it has a name and a type. -/
def storeKey (qname : String) (qtype : Nat) (answer : Packed) : Option String :=
  answer.name.bind fun name =>
    answer.type.map fun type => cacheKey (if type = qtype then qname else name) qtype

variable {Cache : Type*} (lru : LruCache Cache)

/-- `_M.store` -/
def store (cache : Cache) (qname : String) (qtype : Nat) (answer : Packed) (forceTtl : Option Int) :
    Except String Cache :=
  match storeKey qname qtype answer with
  | none => .error "invalid answer"
  | some key =>
      let ttl := forceTtl.getD answer.ttl
      .ok (lru.set cache key answer (if ttl = -1 then none else some ttl))

/-- The loop of `_M.save`. The groups before one that is invalid stay stored. -/
def storeAll (qname : String) (qtype : Nat) : List Packed → Cache → Cache × Option String
  | [], cache => (cache, none)
  | answer :: rest, cache =>
      match store lru cache qname qtype answer none with
      | .error err => (cache, some err)
      | .ok cache => storeAll qname qtype rest cache

/-- `_M.save` -/
def save (cache : Cache) (qname : String) (qtype : Nat) (answers : List Answer) :
    Option (Cache × Except String (List Packed)) :=
  (compactAnswers answers).map fun ans =>
    match storeAll lru qname qtype ans cache with
    | (cache, some err) => (cache, .error err)
    | (cache, none) => (cache, .ok ans)

end Saving

section Reading

/-- What a fetch reads and changes. -/
structure Fetch (Cache : Type*) where
  cache : Cache
  circularReference : List String
  found : List Answer

def circularReferenceError (hostname : String) : String :=
  "circular reference detected when querying " ++ hostname

variable {Cache : Type*} (lru : LruCache Cache) (stale : Bool)

/-- `fetch_answers` -/
def fetchAnswers (hostname : Option String) (fetch : Fetch Cache) :
    Except (LinkWalk.Failure String) (List Answer × Fetch Cache) :=
  match hostname with
  | none => .ok ([], fetch)
  | some hostname =>
      if hostname ∈ fetch.circularReference then
        .error (.stopped (circularReferenceError hostname))
      else
        let fetch := { fetch with circularReference := hostname :: fetch.circularReference }
        match lru.get fetch.cache hostname, lru.getStale fetch.cache hostname with
        | some answer, _ => .ok (answer.answers, fetch)
        | none, some staleAnswer =>
            if stale then
              .ok (staleAnswer.answers,
                { fetch with cache := lru.set fetch.cache hostname staleAnswer (some 0) })
            else .ok ([], fetch)
        | none, none => .ok ([], fetch)

/-- `yieldfetch`, down to a depth of canonical names. -/
def yieldfetch : Nat → Option String → Fetch Cache →
    Except (LinkWalk.Failure String) (Fetch Cache)
  | 0, _, _ => .error .unfinished
  | depth + 1, hostname, fetch => do
      let (answers, fetch) ← fetchAnswers lru stale hostname fetch
      answers.foldlM (fun fetch answer => do
        let fetch ← yieldfetch depth answer.cname fetch
        .ok { fetch with found := fetch.found ++ [answer] }) fetch

/-- The answers to a query, which have their addresses when they come from the cache. -/
structure Answers where
  answers : List Answer
  errcode : Option Nat
  addresses : Option (List String)
  deriving DecidableEq, Repr

/-- `_M.get`, with the cache it leaves. -/
def get (depth : Nat) (cache : Cache) (name : String) :
    Except (LinkWalk.Failure String) (Answers × Cache) := do
  let fetch ← yieldfetch lru stale depth (some name)
    { cache, circularReference := [], found := [] }
  .ok ({
    answers := fetch.found
    errcode := none
    addresses := some (fetch.found.filterMap Answer.address) }, fetch.cache)

end Reading

section Resolver

structure Server where
  address : String
  ttl : Int
  port : Option Nat
  deriving DecidableEq, Repr

/-- `new_server`, which gives nothing for a record without an address. -/
def newServer (port : Option Nat) (answer : Answer) : Option Server :=
  answer.address.map fun address => { address, ttl := answer.ttl, port := port.or answer.port }

/-- `convert_answers` -/
def convertAnswers (answers : List Answer) (port : Option Nat) : List Server :=
  answers.filterMap (newServer port)

/-- `valid_answers` -/
def validAnswers (answers : Answers) : Bool :=
  answers.errcode.isNone && answers.answers ≠ [] && answers.addresses.all (· ≠ [])

end Resolver

section Compacting

/-- What the groups are after some records. -/
structure Compacts (servers : List Answer) (compact : List Packed) : Prop where
  nodup : (compact.map Packed.name).Nodup
  named : ∀ packed ∈ compact, packed.name.isSome
  answers : ∀ packed ∈ compact,
    packed.answers = servers.filter fun server => server.owner = packed.name
  type : ∀ packed ∈ compact, ∃ server ∈ servers, packed.type = server.type
  all : ∀ server ∈ servers, ∃ packed ∈ compact, packed.name = server.owner

variable {servers : List Answer} {compact : List Packed} {server : Answer} {name : String}

/-- A record more leaves the groups of the other names as they are. -/
theorem filter_owner_append (owner : server.owner = some name) {other : Option String} :
    (servers ++ [server]).filter (fun server => server.owner = other) =
      if other = some name then servers.filter (fun server => server.owner = other) ++ [server]
      else servers.filter fun server => server.owner = other := by
  rw [List.filter_append]
  by_cases same : other = some name
  · simp only [same, if_true, List.filter_singleton, owner, decide_true, cond_true]
  · have different : ¬some name = other := fun equal => same equal.symm
    rw [if_neg same, List.filter_singleton, owner, decide_eq_false different]
    exact List.append_nil _

/-- The record is added to the group that there is. -/
theorem Compacts.add (compacts : Compacts servers compact) (owner : server.owner = some name)
    (known : ∃ packed ∈ compact, packed.name = some name) :
    Compacts (servers ++ [server]) (compact.map fun packed =>
      if packed.name = some name then packed.add server else packed) := by
  have sameName (packed : Packed) :
      (if packed.name = some name then packed.add server else packed).name = packed.name := by
    split <;> rfl
  have sameType (packed : Packed) :
      (if packed.name = some name then packed.add server else packed).type = packed.type := by
    split <;> rfl
  have kept : ∀ packed ∈ compact, ∃ other ∈ compact.map fun packed =>
      if packed.name = some name then packed.add server else packed,
      other.name = packed.name :=
    fun packed member => ⟨_, List.mem_map_of_mem member, sameName packed⟩
  refine ⟨?_, ?_, ?_, ?_, ?_⟩
  · rw [List.map_map]
    exact (List.map_congr_left fun packed _ => sameName packed) ▸ compacts.nodup
  · refine List.forall_mem_map.mpr fun packed member => ?_
    rw [sameName]
    exact compacts.named packed member
  · refine List.forall_mem_map.mpr fun packed member => ?_
    rw [sameName, filter_owner_append owner, ← compacts.answers packed member]
    split <;> rfl
  · refine List.forall_mem_map.mpr fun packed member => ?_
    obtain ⟨first, source, type⟩ := compacts.type packed member
    exact ⟨first, List.mem_append_left _ source, (sameType packed).trans type⟩
  · refine List.forall_mem_append.mpr ⟨fun other member => ?_, List.forall_mem_singleton.mpr ?_⟩
    · obtain ⟨packed, present, same⟩ := compacts.all other member
      exact same ▸ kept packed present
    · obtain ⟨packed, present, same⟩ := known
      obtain ⟨other, member, named⟩ := kept packed present
      exact ⟨other, member, named.trans (same.trans owner.symm)⟩

/-- The record is the first one of its name. -/
theorem Compacts.append (compacts : Compacts servers compact) (owner : server.owner = some name)
    (absent : ∀ packed ∈ compact, packed.name ≠ some name) :
    Compacts (servers ++ [server]) (compact ++ [{
      answers := [server]
      name := some name
      ttl := server.ttl
      type := server.type }]) := by
  have unowned : servers.filter (fun server => server.owner = some name) = [] := by
    refine List.filter_eq_nil_iff.mpr fun other member same => ?_
    obtain ⟨packed, present, named⟩ := compacts.all other member
    exact absent packed present (named.trans (of_decide_eq_true same))
  refine ⟨?_, ?_, ?_, ?_, ?_⟩
  · rw [List.map_append, List.map_singleton]
    refine List.nodup_append.mpr ⟨compacts.nodup, List.nodup_singleton _, ?_⟩
    intro _ member other single same
    obtain ⟨packed, present, rfl⟩ := List.mem_map.mp member
    exact absent packed present (same.trans (List.mem_singleton.mp single))
  · exact List.forall_mem_append.mpr ⟨compacts.named, List.forall_mem_singleton.mpr rfl⟩
  · refine List.forall_mem_append.mpr ⟨fun packed member => ?_, List.forall_mem_singleton.mpr ?_⟩
    · rw [filter_owner_append owner, if_neg (absent packed member)]
      exact compacts.answers packed member
    · rw [filter_owner_append owner, if_pos rfl, unowned]
      rfl
  · refine List.forall_mem_append.mpr ⟨fun packed member => ?_, List.forall_mem_singleton.mpr ?_⟩
    · obtain ⟨first, source, type⟩ := compacts.type packed member
      exact ⟨first, List.mem_append_left _ source, type⟩
    · exact ⟨server, List.mem_append_right _ (List.mem_singleton_self _), rfl⟩
  · refine List.forall_mem_append.mpr ⟨fun other member => ?_, List.forall_mem_singleton.mpr ?_⟩
    · obtain ⟨packed, present, same⟩ := compacts.all other member
      exact ⟨packed, List.mem_append_left _ present, same⟩
    · exact ⟨_, List.mem_append_right _ (List.mem_singleton_self _), owner.symm⟩

theorem Compacts.pack (compacts : Compacts servers compact) (owner : server.owner = some name) :
    Compacts (servers ++ [server]) (pack name server compact) := by
  unfold ResolverCache.pack
  have listed : compact.any (·.name = some name) = true ↔
      ∃ packed ∈ compact, packed.name = some name := by
    simp only [List.any_eq_true, decide_eq_true_eq]
  by_cases known : ∃ packed ∈ compact, packed.name = some name
  · rw [if_pos (listed.mpr known)]
    exact compacts.add owner known
  · rw [if_neg (mt listed.mp known)]
    exact compacts.append owner fun packed member named => known ⟨packed, member, named⟩

/-- What holds of no records, and of every further record that is packed, holds of the groups. -/
@[elab_as_elim]
theorem compactAnswers_induction {holds : List Answer → List Packed → Prop} (start : holds [] [])
    (packs : ∀ servers compact server name, holds servers compact → server.owner = some name →
      holds (servers ++ [server]) (pack name server compact))
    (compacted : compactAnswers servers = some compact) : holds servers compact := by
  have run (done rest : List Answer) (before : List Packed) (held : holds done before)
      (packed : rest.foldlM (fun compact server =>
        server.owner.map fun name => pack name server compact) before = some compact) :
      holds (done ++ rest) compact := by
    induction rest generalizing done before with
    | nil =>
        cases packed
        rwa [List.append_nil]
    | cons server rest ih =>
        rw [List.foldlM_cons] at packed
        obtain ⟨middle, first, others⟩ := Option.bind_eq_some_iff.mp packed
        obtain ⟨name, owner, rfl⟩ := Option.map_eq_some_iff.mp first
        rw [List.append_cons]
        exact ih _ _ (packs _ _ _ _ held owner) others
  exact run [] servers [] start compacted

/-- The groups of an answer are those of its names, with all their records in order. -/
theorem compacts_compactAnswers (compacted : compactAnswers servers = some compact) :
    Compacts servers compact := by
  refine compactAnswers_induction ?_ (fun _ _ _ _ => Compacts.pack) compacted
  exact ⟨List.nodup_nil, List.forall_mem_nil _, List.forall_mem_nil _, List.forall_mem_nil _,
    List.forall_mem_nil _⟩

/-- An answer whose records all have a name is grouped. -/
theorem compactAnswers_isSome (owned : ∀ server ∈ servers, server.owner.isSome) :
    ∃ compact, compactAnswers servers = some compact := by
  have run (before : List Packed) : ∃ compact, servers.foldlM (fun compact server =>
      server.owner.map fun name => ResolverCache.pack name server compact) before =
        some compact := by
    induction servers generalizing before with
    | nil => exact ⟨before, rfl⟩
    | cons server rest ih =>
        obtain ⟨first, others⟩ := List.forall_mem_cons.mp owned
        obtain ⟨name, owner⟩ := Option.isSome_iff_exists.mp first
        rw [List.foldlM_cons, owner]
        exact ih others _
  exact run []

end Compacting

section Domain

/-- The type of records with a canonical name. -/
def typeCname : Nat := 5

def Answer.IsAddress (qtype : Nat) (answer : Answer) : Prop :=
  answer.name.isSome ∧ answer.address.isSome ∧ answer.cname = none ∧ answer.type = some qtype

def Answer.IsCname (answer : Answer) : Prop :=
  answer.name.isSome ∧ answer.address = none ∧ answer.cname.isSome ∧ answer.type = some typeCname

/-- An answer to a query of a type: addresses of one owner and canonical names, in any order. -/
structure DnsAnswers (qtype : Nat) (answers : List Answer) : Prop where
  records : ∀ answer ∈ answers, answer.IsAddress qtype ∨ answer.IsCname
  owner : ∃ owner, ∀ answer ∈ answers, answer.IsAddress qtype → answer.name = some owner

variable {qtype : Nat} {qname : String} {answers : List Answer} {compact : List Packed}

instance (qtype : Nat) (answer : Answer) : Decidable (answer.IsAddress qtype) :=
  inferInstanceAs (Decidable (_ ∧ _))

instance (answer : Answer) : Decidable answer.IsCname :=
  inferInstanceAs (Decidable (_ ∧ _))

theorem DnsAnswers.named (dns : DnsAnswers qtype answers) :
    ∀ answer ∈ answers, answer.name.isSome ∧ answer.type.isSome := by
  intro answer member
  rcases dns.records answer member with ⟨named, -, -, type⟩ | ⟨named, -, -, type⟩
  · exact ⟨named, type ▸ rfl⟩
  · exact ⟨named, type ▸ rfl⟩

theorem owner_eq_name {server : Answer} (named : server.name.isSome) :
    server.owner = server.name := by
  obtain ⟨name, named⟩ := Option.isSome_iff_exists.mp named
  unfold Answer.owner
  rw [named]
  rfl

/-- The records with an address have one owner. -/
theorem DnsAnswers.owner_of_address (dns : DnsAnswers qtype answers) :
    ∃ owner : String, ∀ answer ∈ answers, answer.address.isSome → answer.owner = some owner := by
  obtain ⟨owner, own⟩ := dns.owner
  refine ⟨owner, fun answer member address => ?_⟩
  rcases dns.records answer member with isAddress | ⟨-, without, -⟩
  · exact (owner_eq_name isAddress.1).trans (own answer member isAddress)
  · rw [without] at address
    cases address

/-- All groups of an answer can be stored. -/
theorem DnsAnswers.storeKey_isSome (dns : DnsAnswers qtype answers)
    (compacts : Compacts answers compact) :
    ∀ packed ∈ compact, (storeKey qname qtype packed).isSome := by
  intro packed member
  obtain ⟨name, named⟩ := Option.isSome_iff_exists.mp (compacts.named packed member)
  obtain ⟨server, source, same⟩ := compacts.type packed member
  obtain ⟨type, typed⟩ := Option.isSome_iff_exists.mp (dns.named server source).2
  unfold storeKey
  rw [named, same, typed]
  rfl

end Domain

section Saved

/-- The group that is stored last under a key. -/
def written (qname : String) (qtype : Nat) (compact : List Packed) (key : String) :
    Option Packed :=
  compact.reverse.find? fun packed => storeKey qname qtype packed = some key

variable {Cache : Type*} {lru : LruCache Cache} {cache : Cache} {qname key : String} {qtype : Nat}
  {compact : List Packed} {found : Packed}

theorem written_cons {packed : Packed} : written qname qtype (packed :: compact) key =
    (written qname qtype compact key).or
      (if storeKey qname qtype packed = some key then some packed else none) := by
  unfold written
  rw [List.reverse_cons, List.find?_append]
  simp only [List.find?_singleton, decide_eq_true_eq]

/-- What is found under a key after saving was written there, or it was there before. -/
theorem get_storeAll (last : lru.FindsLast)
    (storable : ∀ packed ∈ compact, (storeKey qname qtype packed).isSome)
    (get : lru.get (storeAll lru qname qtype compact cache).1 key = some found) :
    written qname qtype compact key = some found ∨
      written qname qtype compact key = none ∧ lru.get cache key = some found := by
  induction compact generalizing cache with
  | nil => exact .inr ⟨rfl, get⟩
  | cons packed rest ih =>
      obtain ⟨first, others⟩ := List.forall_mem_cons.mp storable
      obtain ⟨stored, keyed⟩ := Option.isSome_iff_exists.mp first
      rw [written_cons, keyed]
      simp only [storeAll, store, keyed] at get
      rcases ih others get with latest | ⟨unwritten, before⟩
      · rw [latest]
        exact .inl rfl
      · rw [unwritten, Option.none_or]
        have origin := last _ _ _ _ _ _ before
        by_cases same : key = stored
        · rw [if_pos same] at origin
          rw [if_pos (congrArg some same.symm), origin]
          exact .inl rfl
        · rw [if_neg same] at origin
          rw [if_neg fun equal => same (Option.some.inj equal).symm]
          exact .inr ⟨rfl, origin⟩

theorem storeAll_snd (storable : ∀ packed ∈ compact, (storeKey qname qtype packed).isSome) :
    (storeAll lru qname qtype compact cache).2 = none := by
  induction compact generalizing cache with
  | nil => rfl
  | cons packed rest ih =>
      obtain ⟨first, others⟩ := List.forall_mem_cons.mp storable
      obtain ⟨stored, keyed⟩ := Option.isSome_iff_exists.mp first
      simp only [storeAll, store, keyed]
      exact ih others

/-- Every answer to a query is saved. -/
theorem save_eq {answers : List Answer} (dns : DnsAnswers qtype answers) :
    ∃ compact, compactAnswers answers = some compact ∧
      save lru cache qname qtype answers =
        some ((storeAll lru qname qtype compact cache).1, .ok compact) := by
  obtain ⟨compact, compacted⟩ := compactAnswers_isSome fun server member =>
    (owner_eq_name (dns.named server member).1) ▸ (dns.named server member).1
  refine ⟨compact, compacted, ?_⟩
  have complete : (storeAll lru qname qtype compact cache).2 = none :=
    storeAll_snd (dns.storeKey_isSome (compacts_compactAnswers compacted))
  unfold save
  rw [compacted, Option.map_some]
  split
  · next failed =>
      rw [failed] at complete
      cases complete
  · next saved =>
      rw [saved]

/-- A group that is found under a key was stored under it. -/
theorem written_eq_some (get : written qname qtype compact key = some found) :
    found ∈ compact ∧ storeKey qname qtype found = some key := by
  unfold written at get
  have keyed := List.find?_some get
  exact ⟨List.mem_reverse.mp (List.mem_of_find?_eq_some get), of_decide_eq_true keyed⟩

end Saved

section Walk

variable {Cache : Type*}

/-- The records that are found under a key. -/
def cached (lru : LruCache Cache) (cache : Cache) (key : String) : List Answer :=
  (lru.get cache key).elim [] Packed.answers

/-- A fetch that has come so far. -/
def Fetch.of (cache : Cache) (progress : LinkWalk.Progress String Answer) : Fetch Cache where
  cache := cache
  circularReference := progress.seen
  found := progress.found

variable {lru : LruCache Cache} {cache : Cache} {depth : Nat}

theorem fetchAnswers_some {hostname : String} {progress : LinkWalk.Progress String Answer}
    (unseen : hostname ∉ progress.seen) :
    fetchAnswers lru false (some hostname) (.of cache progress) = .ok (cached lru cache hostname,
      .of cache { progress with seen := hostname :: progress.seen }) := by
  simp only [fetchAnswers, Fetch.of, unseen, if_false, cached]
  cases lru.get cache hostname with
  | some answer => rfl
  | none =>
      cases lru.getStale cache hostname with
      | some staleAnswer => rfl
      | none => rfl

/-- Without stale entries, a fetch walks through the cache as it is. -/
theorem yieldfetch_eq_walk {hostname : Option String}
    {progress : LinkWalk.Progress String Answer} :
    yieldfetch lru false depth hostname (.of cache progress) =
      (LinkWalk.walk Answer.cname (cached lru cache) circularReferenceError depth hostname
        progress).map (Fetch.of cache) := by
  induction depth generalizing hostname progress with
  | zero => rfl
  | succ depth ih =>
      cases hostname with
      | none => rfl
      | some hostname =>
          unfold yieldfetch LinkWalk.walk
          by_cases seen : hostname ∈ progress.seen
          · rw [if_pos seen]
            simp only [fetchAnswers, Fetch.of, seen, if_true]
            rfl
          · rw [if_neg seen, fetchAnswers_some seen]
            refine (FallibleLoop.foldlM_map fun progress answer _ => ?_).symm
            rw [ih]
            unfold LinkWalk.collect
            cases LinkWalk.walk Answer.cname (cached lru cache) circularReferenceError depth
                answer.cname progress with
            | error failure => rfl
            | ok next => rfl

/-- A lookup without stale entries gives what a walk finds, and leaves the cache as it is. -/
theorem get_eq_walk {name : String} : get lru false depth cache name =
    (LinkWalk.walk Answer.cname (cached lru cache) circularReferenceError depth (some name)
      ⟨[], []⟩).map fun progress =>
        ({ answers := progress.found
           errcode := none
           addresses := some (progress.found.filterMap Answer.address) }, cache) := by
  have walked : yieldfetch lru false depth (some name) (.of cache ⟨[], []⟩) =
      (LinkWalk.walk Answer.cname (cached lru cache) circularReferenceError depth (some name)
        ⟨[], []⟩).map (Fetch.of cache) := yieldfetch_eq_walk
  unfold get
  change (yieldfetch lru false depth (some name) (.of cache ⟨[], []⟩) >>= _) = _
  rw [walked]
  cases LinkWalk.walk Answer.cname (cached lru cache) circularReferenceError depth (some name)
      ⟨[], []⟩ with
  | error failure => rfl
  | ok progress => rfl

/-- A lookup ends at some depth in a cache that has finitely many keys. -/
theorem get_ne_unfinished {name : String} {keys : Finset String}
    (listed : ∀ key, (lru.get cache key).isSome → key ∈ keys) (deep : keys.card < depth) :
    get lru false depth cache name ≠ .error .unfinished := by
  have filled : ∀ key, cached lru cache key ≠ [] → key ∈ keys := by
    intro key filled
    refine listed key ?_
    unfold cached at filled
    cases absent : lru.get cache key with
    | none =>
        rw [absent] at filled
        exact absurd rfl filled
    | some packed => rfl
  have ends : LinkWalk.walk Answer.cname (cached lru cache) circularReferenceError depth
      (some name) ⟨[], []⟩ ≠ .error .unfinished :=
    LinkWalk.walk_ne_unfinished filled ((Finset.card_filter_le keys _).trans_lt deep)
  rw [get_eq_walk]
  cases walked : LinkWalk.walk Answer.cname (cached lru cache) circularReferenceError depth
      (some name) ⟨[], []⟩ with
  | error failure =>
      rintro ⟨rfl⟩
      exact ends walked
  | ok progress => exact fun failed => nomatch failed

end Walk

end Apicast.ResolverCache
