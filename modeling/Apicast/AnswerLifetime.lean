import Mathlib.Data.List.Find
import Mathlib.Algebra.Order.Field.Basic
import Mathlib.Data.Rat.Cast.Order
import Mathlib.Tactic.Linarith
import Apicast.Foundation.ExpiringCache
import Apicast.ResolverCache

/-!
# How long an answer is found

A group of records lives as long as the smallest time to live of its own records. The addresses are
stored under the queried name, where a lookup finds them without the canonical names that led to
them. They are forgotten in time when one of them has the smallest time to live of the whole answer,
or when the canonical name of the queried name is stored over them.
-/

namespace Apicast.ResolverCache

open Foundation

section Groups

variable {servers : List Answer} {compact : List Packed}

/-- A group has the type of its records, and the smallest of their times to live. -/
structure Packed.Sound (packed : Packed) : Prop where
  type : ∃ answer ∈ packed.answers, packed.type = answer.type
  attained : ∃ answer ∈ packed.answers, packed.ttl = answer.ttl
  least : ∀ answer ∈ packed.answers, packed.ttl ≤ answer.ttl

theorem Packed.Sound.add {packed : Packed} (sound : packed.Sound) (server : Answer) :
    (packed.add server).Sound := by
  obtain ⟨⟨typed, typedMember, type⟩, ⟨first, firstMember, ttl⟩, least⟩ := sound
  have newMember : server ∈ (packed.add server).answers :=
    List.mem_append_right _ (List.mem_singleton_self _)
  refine ⟨⟨typed, List.mem_append_left _ typedMember, type⟩, ?_, ?_⟩
  · rcases le_total packed.ttl server.ttl with smaller | larger
    · exact ⟨first, List.mem_append_left _ firstMember, (min_eq_left smaller).trans ttl⟩
    · exact ⟨server, newMember, min_eq_right larger⟩
  · refine List.forall_mem_append.mpr ⟨fun answer member => ?_, List.forall_mem_singleton.mpr ?_⟩
    · exact (min_le_left _ _).trans (least answer member)
    · exact min_le_right _ _

theorem sound_pack {name : String} (server : Answer) (sound : ∀ packed ∈ compact, packed.Sound) :
    ∀ packed ∈ pack name server compact, packed.Sound := by
  unfold pack
  split
  · refine List.forall_mem_map.mpr fun packed member => ?_
    split
    · exact (sound packed member).add server
    · exact sound packed member
  · refine List.forall_mem_append.mpr ⟨sound, List.forall_mem_singleton.mpr ?_⟩
    simp [Packed.Sound.mk]

theorem sound_compactAnswers (compacted : compactAnswers servers = some compact) :
    ∀ packed ∈ compact, packed.Sound := by
  refine compactAnswers_induction (List.forall_mem_nil _) ?_ compacted
  intro _ _ server _ sound _
  exact sound_pack server sound

/-- A record more makes no difference to the first group of some names, if there is one. -/
theorem find?_pack {name : String} {server : Answer} {choose : Option String → Bool} :
    ((pack name server compact).find? fun packed => choose packed.name).map Packed.name =
      ((compact.find? fun packed => choose packed.name).map Packed.name).or
        (if choose (some name) then some (some name) else none) := by
  unfold pack
  split
  · next known =>
      have sameName (packed : Packed) :
          (if packed.name = some name then packed.add server else packed).name = packed.name := by
        split <;> rfl
      rw [List.find?_map, Option.map_map]
      simp only [Function.comp_def, sameName]
      cases found : compact.find? fun packed => choose packed.name with
      | some packed => rfl
      | none =>
          obtain ⟨packed, member, named⟩ := List.any_eq_true.mp known
          have unchosen := List.find?_eq_none.mp found packed member
          rw [of_decide_eq_true named] at unchosen
          rw [if_neg unchosen]
          rfl
  · rw [List.find?_append, List.find?_singleton]
    cases compact.find? fun packed => choose packed.name with
    | some packed => rfl
    | none =>
        simp only [Option.none_or, Option.map_none]
        split <;> rfl

/-- The first group of some names is that of the first record. -/
theorem find?_compactAnswers (compacted : compactAnswers servers = some compact)
    (choose : Option String → Bool) :
    (compact.find? fun packed => choose packed.name).map Packed.name =
      (servers.find? fun server => choose server.owner).map Answer.owner := by
  refine compactAnswers_induction rfl ?_ compacted
  intro servers compact server name same owner
  rw [find?_pack, same, List.find?_append, List.find?_singleton, owner]
  cases servers.find? fun server => choose server.owner with
  | some first => rfl
  | none =>
      simp only [Option.none_or, Option.map_none]
      split
      · exact congrArg some owner.symm
      · rfl

end Groups

section Domain

/-- An answer that leads to addresses. Its canonical names are those of other names than the owner
of the addresses, and its records are in any order. -/
structure AddressAnswers (qtype : Nat) (answers : List Answer) : Prop extends
    DnsAnswers qtype answers where
  addressed : ∃ address ∈ answers, address.IsAddress qtype
  canonical : ∀ address ∈ answers, address.IsAddress qtype → ∀ other ∈ answers, other.IsCname →
    other.name ≠ address.name
  type : qtype ≠ typeCname
  ttl : ∀ answer ∈ answers, 0 ≤ answer.ttl

/-- An address has the smallest time to live of all records. -/
def AddressesExpireFirst (qtype : Nat) (answers : List Answer) : Prop :=
  ∃ address ∈ answers, address.IsAddress qtype ∧ ∀ answer ∈ answers, address.ttl ≤ answer.ttl

/-- The queried name has a canonical name, and there is an address before its first record. -/
def AddressesOverwritten (qname : String) (qtype : Nat) (answers : List Answer) : Prop :=
  (∃ canonical ∈ answers, canonical.IsCname ∧ canonical.name = some qname) ∧
    ∃ first ∈ answers.find? fun answer => answer.IsAddress qtype ∨ answer.name = some qname,
      first.IsAddress qtype

variable {qname : String} {qtype : Nat} {answers : List Answer} {compact : List Packed}
  {packed : Packed} {key : String}

theorem Compacts.eq_of_name (compacts : Compacts answers compact) {other : Packed}
    (member : packed ∈ compact) (otherMember : other ∈ compact) (same : packed.name = other.name) :
    packed = other :=
  List.inj_on_of_nodup_map compacts.nodup member otherMember same

/-- A group has either all the addresses, or it has canonical names only. -/
theorem AddressAnswers.group (dns : AddressAnswers qtype answers)
    (compacts : Compacts answers compact) (sound : packed.Sound) (member : packed ∈ compact) :
    (packed.type = some qtype ∧ ∀ answer ∈ packed.answers, answer.IsAddress qtype) ∨
      packed.type = some typeCname ∧ ∀ answer ∈ packed.answers, answer.IsCname := by
  have grouped : ∀ answer ∈ packed.answers, answer ∈ answers ∧ answer.name = packed.name := by
    intro answer inside
    rw [compacts.answers packed member] at inside
    obtain ⟨source, owner⟩ := List.mem_filter.mp inside
    refine ⟨source, ?_⟩
    rw [← owner_eq_name (dns.named answer source).1]
    exact of_decide_eq_true owner
  obtain ⟨typed, inside, type⟩ := sound.type
  obtain ⟨source, named⟩ := grouped typed inside
  rcases dns.records typed source with address | canonical
  · refine .inl ⟨type.trans address.2.2.2, fun answer other => ?_⟩
    obtain ⟨otherSource, otherNamed⟩ := grouped answer other
    refine (dns.records answer otherSource).resolve_right fun canonical => ?_
    exact dns.canonical typed source address answer otherSource canonical
      (otherNamed.trans named.symm)
  · refine .inr ⟨type.trans canonical.2.2.2, fun answer other => ?_⟩
    obtain ⟨otherSource, otherNamed⟩ := grouped answer other
    refine (dns.records answer otherSource).resolve_left fun address => ?_
    exact dns.canonical answer otherSource address typed source canonical
      (named.trans otherNamed.symm)

theorem cacheKey_injective {name other : String} :
    cacheKey name qtype = cacheKey other qtype ↔ name = other := by
  unfold cacheKey
  rw [String.append_left_inj, String.append_left_inj]

/-- A group of canonical names is stored under its name. -/
theorem storeKey_of_canonical (different : qtype ≠ typeCname)
    (canonical : packed.type = some typeCname) :
    storeKey qname qtype packed = some (cacheKey qname qtype) ↔ packed.name = some qname := by
  unfold storeKey
  rw [canonical]
  cases packed.name with
  | none => simp
  | some name =>
      rw [Option.bind_some, Option.map_some, if_neg different.symm, Option.some_inj,
        Option.some_inj]
      exact cacheKey_injective

/-- The last group of a key is found under it. -/
theorem written_of_last {front back : List Packed}
    (keyed : storeKey qname qtype packed = some key)
    (last : ∀ other ∈ back, storeKey qname qtype other ≠ some key) :
    written qname qtype (front ++ packed :: back) key = some packed := by
  unfold written
  have later : (back.reverse.find? fun other => storeKey qname qtype other = some key) = none := by
    refine List.find?_eq_none.mpr fun other member same => ?_
    exact last other (List.mem_reverse.mp member) (of_decide_eq_true same)
  rw [List.reverse_append, List.reverse_cons, List.append_assoc, List.find?_append, later,
    Option.none_or, List.singleton_append]
  exact List.find?_cons_of_pos (decide_eq_true keyed)

/-- The address group of an answer, and what is known about all groups. -/
structure AddressGroup (qtype : Nat) (answers : List Answer) (compact : List Packed)
    (group : Packed) : Prop where
  dns : AddressAnswers qtype answers
  compacted : compactAnswers answers = some compact
  member : group ∈ compact
  type : group.type = some qtype
  addresses : ∀ answer ∈ group.answers, answer.IsAddress qtype
  all : ∀ answer ∈ answers, answer.IsAddress qtype → answer ∈ group.answers

namespace AddressGroup

variable {group other : Packed}

theorem exists_group (dns : AddressAnswers qtype answers)
    (compacted : compactAnswers answers = some compact) :
    ∃ group, AddressGroup qtype answers compact group := by
  have compacts := compacts_compactAnswers compacted
  obtain ⟨owner, own⟩ := dns.owner
  obtain ⟨address, source, first⟩ := dns.addressed
  obtain ⟨group, member, named⟩ := compacts.all address source
  have inside : ∀ answer ∈ answers, answer.IsAddress qtype → answer ∈ group.answers := by
    intro answer otherSource isAddress
    rw [compacts.answers group member, named, owner_eq_name first.1, own address source first]
    refine List.mem_filter.mpr ⟨otherSource, decide_eq_true ?_⟩
    rw [owner_eq_name isAddress.1, own answer otherSource isAddress]
  have sound := sound_compactAnswers compacted group member
  rcases dns.group compacts sound member with ⟨type, addresses⟩ | ⟨-, canonical⟩
  · exact ⟨group, dns, compacted, member, type, addresses, inside⟩
  · have without := (canonical address (inside address source first)).2.1
    have present := first.2.1
    rw [without] at present
    cases present

variable (known : AddressGroup qtype answers compact group)
include known

/-- Another group than that of the addresses has canonical names only. -/
theorem canonical_of_ne (member : other ∈ compact) (different : other ≠ group) :
    other.type = some typeCname ∧ ∀ answer ∈ other.answers, answer.IsCname := by
  have compacts := compacts_compactAnswers known.compacted
  have sound := sound_compactAnswers known.compacted other member
  refine (known.dns.group compacts sound member).resolve_left ?_
  rintro ⟨-, addresses⟩
  obtain ⟨answer, inside, -⟩ := sound.type
  have isAddress := addresses answer inside
  rw [compacts.answers other member] at inside
  obtain ⟨source, owner⟩ := List.mem_filter.mp inside
  have shared := known.all answer source isAddress
  rw [compacts.answers group known.member] at shared
  have same := (of_decide_eq_true owner).symm.trans
    (of_decide_eq_true (List.mem_filter.mp shared).2)
  exact different (compacts.eq_of_name member known.member same)

theorem storeKey_eq : storeKey qname qtype group = some (cacheKey qname qtype) := by
  obtain ⟨name, named⟩ := Option.isSome_iff_exists.mp
    ((compacts_compactAnswers known.compacted).named group known.member)
  unfold storeKey
  rw [named, known.type, Option.bind_some, Option.map_some, if_pos rfl]

/-- The addresses are the records of one owner. -/
theorem owner_eq_iff {answer : Answer} (source : answer ∈ answers) :
    answer.owner = group.name ↔ answer.IsAddress qtype := by
  have inside : answer ∈ group.answers ↔ answer ∈ answers ∧ answer.owner = group.name := by
    rw [(compacts_compactAnswers known.compacted).answers group known.member, List.mem_filter,
      decide_eq_true_iff]
  constructor
  · intro owner
    exact known.addresses answer (inside.mpr ⟨source, owner⟩)
  · intro address
    exact (inside.mp (known.all answer source address)).2

/-- The first group that may be stored under the queried name is that of the first record. -/
theorem first_eq (qname : String) :
    (compact.find? fun packed => packed.name = group.name ∨ packed.name = some qname).map
        Packed.name =
      (answers.find? fun answer => answer.IsAddress qtype ∨ answer.name = some qname).map
        Answer.owner := by
  refine (find?_compactAnswers known.compacted fun name =>
    name = group.name ∨ name = some qname).trans ?_
  refine congrArg _ (List.find?_congr fun answer source => decide_eq_decide.mpr ?_)
  rw [known.owner_eq_iff source, owner_eq_name (known.dns.named answer source).1]

/-- A group that is stored under the queried name, other than that of the addresses. -/
theorem name_of_keyed (member : other ∈ compact) (different : other ≠ group)
    (keyed : storeKey qname qtype other = some (cacheKey qname qtype)) : other.name = some qname :=
  (storeKey_of_canonical known.dns.type (known.canonical_of_ne member different).1).mp keyed

/-- The addresses are found under the queried name when they are not overwritten. -/
theorem written_addresses (kept : ¬AddressesOverwritten qname qtype answers) :
    written qname qtype compact (cacheKey qname qtype) = some group := by
  have compacts := compacts_compactAnswers known.compacted
  have nodup : compact.Nodup := .of_map _ compacts.nodup
  obtain ⟨front, back, split⟩ := List.append_of_mem known.member
  rw [split] at nodup ⊢
  obtain ⟨-, tail, apart⟩ := List.nodup_append.mp nodup
  refine written_of_last known.storeKey_eq fun other behind keyed => kept ?_
  have member : other ∈ compact := by
    rw [split]
    exact List.mem_append_right _ (List.mem_cons_of_mem _ behind)
  have different : other ≠ group := by
    rintro rfl
    exact (List.nodup_cons.mp tail).1 behind
  have named := known.name_of_keyed member different keyed
  have leads : (compact.find? fun packed =>
      packed.name = group.name ∨ packed.name = some qname) = some group := by
    refine List.find?_eq_some_iff_append.mpr ⟨by simp, front, back, split, ?_⟩
    intro earlier inFront
    have earlierMember : earlier ∈ compact := by
      rw [split]
      exact List.mem_append_left _ inFront
    simp only [Bool.not_eq_true', decide_eq_false_iff_not]
    rintro (same | same)
    · exact apart earlier inFront group List.mem_cons_self
        (compacts.eq_of_name earlierMember known.member same)
    · exact apart earlier inFront other (List.mem_cons_of_mem _ behind)
        (compacts.eq_of_name earlierMember member (same.trans named.symm))
  have first := known.first_eq qname
  rw [leads, Option.map_some] at first
  obtain ⟨address, found, owner⟩ := Option.map_eq_some_iff.mp first.symm
  obtain ⟨record, inside, -⟩ := (sound_compactAnswers known.compacted other member).type
  have isCname := (known.canonical_of_ne member different).2 record inside
  rw [compacts.answers other member] at inside
  obtain ⟨source, recordOwner⟩ := List.mem_filter.mp inside
  have recordNamed := (of_decide_eq_true recordOwner).trans named
  rw [owner_eq_name isCname.1] at recordNamed
  exact ⟨⟨record, source, isCname, recordNamed⟩, address, found,
    (known.owner_eq_iff (List.mem_of_find?_eq_some found)).mp owner⟩

/-- Canonical names are found under the queried name when the addresses are overwritten. -/
theorem written_canonical (overwritten : AddressesOverwritten qname qtype answers) :
    ∃ other, written qname qtype compact (cacheKey qname qtype) = some other ∧
      ∀ answer ∈ other.answers, answer.IsCname := by
  obtain ⟨⟨record, source, isCname, recordNamed⟩, address, found, isAddress⟩ := overwritten
  have compacts := compacts_compactAnswers known.compacted
  have nodup : compact.Nodup := .of_map _ compacts.nodup
  have first := known.first_eq qname
  rw [found, Option.map_some,
    (known.owner_eq_iff (List.mem_of_find?_eq_some found)).mpr isAddress] at first
  obtain ⟨leader, leads, leaderNamed⟩ := Option.map_eq_some_iff.mp first
  obtain rfl : leader = group :=
    compacts.eq_of_name (List.mem_of_find?_eq_some leads) known.member leaderNamed
  obtain ⟨-, front, back, split, before⟩ := List.find?_eq_some_iff_append.mp leads
  obtain ⟨other, member, named⟩ := compacts.all record source
  have owner := named
  rw [owner_eq_name isCname.1, recordNamed] at named
  have different : other ≠ leader := by
    rintro rfl
    have address := (known.owner_eq_iff source).mp owner.symm
    have without := isCname.2.1
    have present := address.2.1
    rw [without] at present
    cases present
  obtain ⟨type, canonical⟩ := known.canonical_of_ne member different
  have behind : other ∈ back := by
    rw [split] at member
    rcases List.mem_append.mp member with inFront | rest
    · exact absurd (before other inFront) (by simp [named])
    · exact (List.mem_cons.mp rest).resolve_left different
  obtain ⟨between, later, rfl⟩ := List.append_of_mem behind
  refine ⟨other, ?_, canonical⟩
  have whole : compact = (front ++ leader :: between) ++ other :: later := by
    rw [split, List.append_assoc, List.cons_append]
  rw [whole] at nodup ⊢
  obtain ⟨-, tail, apart⟩ := List.nodup_append.mp nodup
  refine written_of_last ((storeKey_of_canonical known.dns.type type).mpr named) ?_
  intro last inLater keyed
  have lastMember : last ∈ compact := by
    rw [whole]
    exact List.mem_append_right _ (List.mem_cons_of_mem _ inLater)
  have lastDifferent : last ≠ leader := by
    rintro rfl
    exact apart last (List.mem_append_right _ List.mem_cons_self) last
      (List.mem_cons_of_mem _ inLater) rfl
  have lastNamed := known.name_of_keyed lastMember lastDifferent keyed
  obtain rfl := compacts.eq_of_name lastMember member (lastNamed.trans named.symm)
  exact (List.nodup_cons.mp tail).1 inLater

/-- The addresses are found under the queried name only. -/
theorem eq_of_written {value : Packed} {record : Answer}
    (stored : written qname qtype compact key = some value) (inside : record ∈ value.answers)
    (address : record.address.isSome) :
    value = group ∧ ¬AddressesOverwritten qname qtype answers := by
  have unnamed : ¬record.IsCname := by
    rintro ⟨-, without, -⟩
    rw [without] at address
    cases address
  obtain ⟨member, keyed⟩ := written_eq_some stored
  obtain rfl : value = group := by
    by_contra different
    exact unnamed ((known.canonical_of_ne member different).2 record inside)
  refine ⟨rfl, fun overwritten => ?_⟩
  obtain ⟨other, latest, canonical⟩ := known.written_canonical overwritten
  have same := Option.some.inj (keyed.symm.trans known.storeKey_eq)
  rw [same, latest] at stored
  cases stored
  exact unnamed (canonical record inside)

theorem ttl_nonneg : 0 ≤ group.ttl := by
  obtain ⟨answer, inside, ttl⟩ := (sound_compactAnswers known.compacted group known.member).attained
  rw [(compacts_compactAnswers known.compacted).answers group known.member] at inside
  exact ttl ▸ known.dns.ttl answer (List.mem_filter.mp inside).1

/-- The group of the addresses lives no longer than any record exactly if an address does. -/
theorem expireFirst_iff :
    AddressesExpireFirst qtype answers ↔ ∀ answer ∈ answers, group.ttl ≤ answer.ttl := by
  have sound := sound_compactAnswers known.compacted group known.member
  constructor
  · rintro ⟨address, source, isAddress, first⟩ answer member
    exact (sound.least address (known.all address source isAddress)).trans (first answer member)
  · intro first
    obtain ⟨address, inside, ttl⟩ := sound.attained
    refine ⟨address, ?_, known.addresses address inside, ttl ▸ first⟩
    rw [(compacts_compactAnswers known.compacted).answers group known.member] at inside
    exact (List.mem_filter.mp inside).1

end AddressGroup

end Domain

section Timed

/-- A cache at a moment (`ngx.now`). -/
structure Timed where
  now : ℚ
  entries : ExpiringCache ℚ String Packed

/-- `lrucache`, which finds an entry only until its time to live has elapsed. -/
def timed : LruCache Timed where
  get cache key := cache.entries.get cache.now key
  getStale cache key := cache.entries.getStale cache.now key
  set cache key value ttl :=
    { cache with entries := cache.entries.set cache.now key value (ttl.map Int.cast) }

/-- What happens to a cache while nothing is saved. A lookup that takes a stale entry stores it
once more, without any time to live. -/
inductive Passes : Timed → Timed → Prop
  | wait {cache : Timed} {later : ℚ} (order : cache.now ≤ later) :
      Passes cache { cache with now := later }
  | evict {cache : Timed} (key : String) :
      Passes cache { cache with entries := cache.entries.evict key }
  | restale {cache : Timed} {key : String} {value : Packed}
      (stale : timed.getStale cache key = some value) :
      Passes cache (timed.set cache key value (some 0))

/-- When the smallest time to live of an answer has elapsed since it was saved, a lookup finds no
address of it, unless the cache from before would still have it. -/
def ForgetsInTime (qname : String) (qtype : Nat) (answers : List Answer) : Prop :=
  ∀ (prior saved later : Timed) result,
    save timed prior qname qtype answers = some (saved, result) →
    Relation.ReflTransGen Passes saved later →
    (∃ answer ∈ answers, prior.now + answer.ttl < later.now) →
    ∀ depth reply left, get timed false depth later (cacheKey qname qtype) = .ok (reply, left) →
      ∀ record ∈ reply.answers, record ∈ answers → record.address.isSome →
        ∃ key, record ∈ cached timed { prior with now := later.now } key

/-- Lookups pass like steps of their own, also the ones that take stale entries. -/
theorem passes_fetchAnswers {stale : Bool} {hostname : Option String} {fetch : Fetch Timed}
    {answers : List Answer} {after : Fetch Timed}
    (fetched : fetchAnswers timed stale hostname fetch = .ok (answers, after)) :
    Relation.ReflTransGen Passes fetch.cache after.cache := by
  unfold fetchAnswers at fetched
  cases hostname with
  | none =>
      cases fetched
      exact .refl
  | some hostname =>
      dsimp only at fetched
      split at fetched
      · cases fetched
      · split at fetched
        · cases fetched
          exact .refl
        · next found =>
            split at fetched
            · cases fetched
              exact .single (.restale found)
            · cases fetched
              exact .refl
        · cases fetched
          exact .refl

theorem passes_yieldfetch {stale : Bool} {depth : Nat} {hostname : Option String}
    {fetch after : Fetch Timed}
    (fetched : yieldfetch timed stale depth hostname fetch = .ok after) :
    Relation.ReflTransGen Passes fetch.cache after.cache := by
  induction depth generalizing hostname fetch after with
  | zero => cases fetched
  | succ depth ih =>
      obtain ⟨⟨answers, middle⟩, first, others⟩ := FallibleLoop.bind_eq_ok.mp fetched
      have kept : Relation.ReflTransGen Passes middle.cache after.cache := by
        refine FallibleLoop.holds_of_foldlM ?_ .refl others
        intro answer _ before next known followed
        obtain ⟨found, walked, rest⟩ := FallibleLoop.bind_eq_ok.mp followed
        cases rest
        have passed : Relation.ReflTransGen Passes before.cache found.cache := ih walked
        exact known.trans passed
      exact (passes_fetchAnswers first).trans kept

/-- A lookup is one of the things that happen while nothing is saved. -/
theorem passes_get {stale : Bool} {depth : Nat} {cache left : Timed} {name : String}
    {reply : Answers} (looked : get timed stale depth cache name = .ok (reply, left)) :
    Relation.ReflTransGen Passes cache left := by
  obtain ⟨fetch, fetched, rest⟩ := FallibleLoop.bind_eq_ok.mp looked
  cases rest
  exact passes_yieldfetch fetched

end Timed

section Lifetime

variable {qname : String} {qtype : Nat} {answers : List Answer} {compact : List Packed}
  {cache prior saved later : Timed} {key : String} {value : Packed}

/-- What is found later was there before, for as long. -/
theorem get_of_passes (passes : Relation.ReflTransGen Passes saved later) {moment : ℚ}
    (order : later.now ≤ moment) (found : later.entries.get moment key = some value) :
    saved.entries.get moment key = some value := by
  induction passes with
  | refl => exact found
  | tail _ step ih =>
      cases step with
      | wait forward => exact ih (forward.trans order) found
      | evict evicted => exact ih order (ExpiringCache.get_evict found)
      | restale stale =>
          rcases ExpiringCache.get_set found with ⟨-, -, expired⟩ | before
          · have fresh := expired 0 (by simp)
            rw [add_zero] at fresh
            exact absurd fresh (not_lt.mpr order)
          · exact ih order before

/-- How a group is stored. -/
def Packed.entry (now : ℚ) (packed : Packed) : CacheEntry ℚ Packed where
  value := packed
  expiresAt := if packed.ttl = -1 then none else some (now + packed.ttl)

theorem Packed.expiresAt_entry {packed : Packed} {now : ℚ} (positive : 0 ≤ packed.ttl) :
    (packed.entry now).expiresAt = some (now + packed.ttl) :=
  if_neg (by omega)

/-- The groups that are stored last stand before the entries from before. -/
theorem storeAll_timed (storable : ∀ packed ∈ compact, (storeKey qname qtype packed).isSome) :
    (storeAll timed qname qtype compact prior).1 = { prior with
      entries := fun key =>
        ((written qname qtype compact key).map (Packed.entry prior.now)).or
          (prior.entries key) } := by
  induction compact generalizing prior with
  | nil => rfl
  | cons packed rest ih =>
      obtain ⟨first, others⟩ := List.forall_mem_cons.mp storable
      obtain ⟨stored, keyed⟩ := Option.isSome_iff_exists.mp first
      simp only [storeAll, store, keyed]
      rw [ih others]
      refine congrArg (Timed.mk prior.now) (funext fun key => ?_)
      rw [written_cons, keyed]
      cases written qname qtype rest key with
      | some latest => rfl
      | none =>
          rw [Option.map_none, Option.none_or, Option.none_or]
          by_cases same : stored = key
          · subst same
            rw [if_pos rfl]
            refine ExpiringCache.set_self.trans (congrArg some ?_)
            unfold Packed.entry
            rw [Option.getD_none]
            split <;> rfl
          · rw [if_neg fun equal => same (Option.some.inj equal)]
            exact ExpiringCache.set_of_ne fun equal => same equal.symm

theorem mem_cached {Cache : Type*} {lru : LruCache Cache} {cache : Cache} {record : Answer} :
    record ∈ cached lru cache key ↔ ∃ value, lru.get cache key = some value ∧
      record ∈ value.answers := by
  unfold cached
  cases lru.get cache key with
  | none => simp
  | some value => simp

/-- What a lookup finds is found under some key. -/
theorem exists_cached_of_get {depth : Nat} {name : String} {reply : Answers} {left : Timed}
    (looked : get timed false depth later name = .ok (reply, left)) :
    ∀ record ∈ reply.answers, ∃ key, record ∈ cached timed later key := by
  rw [get_eq_walk] at looked
  cases walked : LinkWalk.walk Answer.cname (cached timed later) circularReferenceError depth
      (some name) ⟨[], []⟩ with
  | error failure =>
      rw [walked] at looked
      cases looked
  | ok progress =>
      rw [walked] at looked
      cases looked
      exact LinkWalk.listed_walk walked

/-- What is found after saving was written, and has not expired, or it was there before. -/
theorem found_after_saving
    (storable : ∀ packed ∈ compact, (storeKey qname qtype packed).isSome) {moment : ℚ}
    (found : (storeAll timed qname qtype compact prior).1.entries.get moment key = some value) :
    (written qname qtype compact key = some value ∧ (value.entry prior.now).Fresh moment) ∨
      prior.entries.get moment key = some value := by
  rw [storeAll_timed storable] at found
  obtain ⟨entry, present, fresh, rfl⟩ := ExpiringCache.get_eq_some.mp found
  dsimp only at present
  cases stored : written qname qtype compact key with
  | none =>
      rw [stored] at present
      exact .inr (ExpiringCache.get_eq_some.mpr ⟨entry, present, fresh, rfl⟩)
  | some packed =>
      rw [stored] at present
      cases present
      exact .inl ⟨rfl, fresh⟩

theorem forgetsInTime_of (dns : AddressAnswers qtype answers)
    (inTime : AddressesExpireFirst qtype answers ∨ AddressesOverwritten qname qtype answers) :
    ForgetsInTime qname qtype answers := by
  intro prior saved later result saving passes elapsed depth reply left looked record listed
    source address
  obtain ⟨compact, compacted, saves⟩ := save_eq dns.toDnsAnswers
  obtain ⟨group, known⟩ := AddressGroup.exists_group dns compacted
  rw [saves] at saving
  cases saving
  obtain ⟨key, present⟩ := exists_cached_of_get looked record listed
  obtain ⟨value, found, inside⟩ := mem_cached.mp present
  have storable : ∀ packed ∈ compact, (storeKey qname qtype packed).isSome :=
    dns.storeKey_isSome (compacts_compactAnswers compacted)
  refine ⟨key, mem_cached.mpr ⟨value, ?_, inside⟩⟩
  rcases found_after_saving storable (get_of_passes passes le_rfl found) with
    ⟨stored, fresh⟩ | before
  · obtain ⟨rfl, kept⟩ := known.eq_of_written stored inside address
    exfalso
    obtain ⟨answer, member, ended⟩ := elapsed
    have least : (value.ttl : ℚ) ≤ answer.ttl :=
      Int.cast_le.mpr (known.expireFirst_iff.mp (inTime.resolve_right kept) answer member)
    have limit := fresh _ (Packed.expiresAt_entry known.ttl_nonneg)
    linarith
  · exact before

/-- A lookup finds the records without canonical names that are stored under its key. -/
theorem get_of_unlinked {Cache : Type*} {lru : LruCache Cache} {cache : Cache}
    (found : lru.get cache key = some value)
    (unlinked : ∀ answer ∈ value.answers, answer.cname = none) :
    get lru false 2 cache key = .ok (⟨value.answers, none,
      some (value.answers.filterMap Answer.address)⟩, cache) := by
  have items : cached lru cache key = value.answers := by
    unfold cached
    rw [found]
    rfl
  rw [get_eq_walk, LinkWalk.walk_of_unlinked List.not_mem_nil (items ▸ unlinked), items]
  rfl

/-- The addresses are still found when a shorter time to live has elapsed. -/
theorem not_forgetsInTime_of (dns : AddressAnswers qtype answers)
    (longer : ¬AddressesExpireFirst qtype answers)
    (kept : ¬AddressesOverwritten qname qtype answers) :
    ¬ForgetsInTime qname qtype answers := by
  intro forgets
  obtain ⟨compact, compacted, saves⟩ : ∃ compact, compactAnswers answers = some compact ∧
      save timed ⟨0, fun _ => none⟩ qname qtype answers =
        some ((storeAll timed qname qtype compact ⟨0, fun _ => none⟩).1, .ok compact) :=
    save_eq dns.toDnsAnswers
  obtain ⟨group, known⟩ := AddressGroup.exists_group dns compacted
  rw [storeAll_timed (dns.storeKey_isSome (compacts_compactAnswers compacted))] at saves
  obtain ⟨answer, member, shorter⟩ : ∃ answer ∈ answers, answer.ttl < group.ttl := by
    simpa [known.expireFirst_iff] using longer
  have shorter : (answer.ttl : ℚ) < group.ttl := Int.cast_lt.mpr shorter
  have positive : (0 : ℚ) ≤ answer.ttl := Int.cast_nonneg (dns.ttl answer member)
  -- The lookup is between the end of the shorter time to live and that of the addresses.
  obtain ⟨moment, elapsed, unexpired⟩ := exists_between shorter
  let saved : Timed := ⟨0, fun key =>
    ((written qname qtype compact key).map (Packed.entry 0)).or none⟩
  have passes : Relation.ReflTransGen Passes saved { saved with now := moment } :=
    .single (.wait (positive.trans elapsed.le))
  have found : timed.get { saved with now := moment } (cacheKey qname qtype) = some group := by
    refine ExpiringCache.get_eq_some.mpr ⟨group.entry 0, ?_, ?_, rfl⟩
    · exact congrArg (fun stored => (stored.map (Packed.entry 0)).or none)
        (known.written_addresses kept)
    · intro limit present
      rw [Packed.expiresAt_entry known.ttl_nonneg] at present
      obtain rfl := Option.some.inj present
      exact (zero_add (group.ttl : ℚ)).symm ▸ unexpired
  have looked := get_of_unlinked found fun answer inside => (known.addresses answer inside).2.2.1
  obtain ⟨record, inside, -⟩ := (sound_compactAnswers compacted group known.member).attained
  have source := inside
  rw [(compacts_compactAnswers compacted).answers group known.member] at source
  obtain ⟨key, present⟩ := forgets _ _ _ _ saves passes
    ⟨answer, member, (zero_add (answer.ttl : ℚ)).symm ▸ elapsed⟩ 2 _ _ looked record inside
    (List.mem_filter.mp source).1 (known.addresses record inside).2.1
  obtain ⟨value, nothing, -⟩ := mem_cached.mp present
  cases nothing

/-- The addresses of an answer are forgotten in time exactly if one of them has the smallest time
to live, or if a canonical name is stored over them. -/
theorem forgetsInTime_iff (qname : String) (qtype : Nat) (answers : List Answer)
    (dns : AddressAnswers qtype answers) :
    ForgetsInTime qname qtype answers ↔
      AddressesExpireFirst qtype answers ∨ AddressesOverwritten qname qtype answers := by
  refine ⟨fun forgets => ?_, forgetsInTime_of dns⟩
  by_contra late
  obtain ⟨longer, kept⟩ := not_or.mp late
  exact not_forgetsInTime_of dns longer kept forgets

/-- A canonical name, with the address that it stands for. -/
def canonicalRecord (ttl : Int) : Answer where
  name := some "www.example.com"
  address := none
  cname := some "web.example.com"
  type := some typeCname
  ttl := ttl
  port := none

def hostRecord (ttl : Int) : Answer where
  name := some "web.example.com"
  address := some "192.0.2.1"
  cname := none
  type := some 1
  ttl := ttl
  port := none

/-- The address has the smaller time to live, or the canonical name comes behind it. -/
theorem forgetsInTime_pair :
    ForgetsInTime "www.example.com" 1 [canonicalRecord 60, hostRecord 10] ∧
      ForgetsInTime "www.example.com" 1 [hostRecord 60, canonicalRecord 10] := by
  constructor
  · refine (forgetsInTime_iff _ _ _ ⟨⟨by decide, "web.example.com", by decide⟩,
      ⟨hostRecord 10, by decide⟩, by decide, by decide, by decide⟩).mpr (.inl ?_)
    exact ⟨hostRecord 10, by decide⟩
  · refine (forgetsInTime_iff _ _ _ ⟨⟨by decide, "web.example.com", by decide⟩,
      ⟨hostRecord 60, by decide⟩, by decide, by decide, by decide⟩).mpr (.inr ?_)
    exact ⟨⟨canonicalRecord 10, by decide⟩, hostRecord 60, rfl, by decide⟩

/-- The canonical name is good for ten seconds, and the address is found for a minute. -/
theorem not_forgetsInTime_shorter :
    AddressAnswers 1 [canonicalRecord 10, hostRecord 60] ∧
      ¬ForgetsInTime "www.example.com" 1 [canonicalRecord 10, hostRecord 60] := by
  have dns : AddressAnswers 1 [canonicalRecord 10, hostRecord 60] :=
    ⟨⟨by decide, "web.example.com", by decide⟩, ⟨hostRecord 60, by decide⟩, by decide, by decide,
      by decide⟩
  refine ⟨dns, not_forgetsInTime_of dns ?_ ?_⟩
  · unfold AddressesExpireFirst
    decide
  · rintro ⟨-, first, found, isAddress⟩
    cases found
    exact absurd isAddress (by decide)

end Lifetime

end Apicast.ResolverCache
