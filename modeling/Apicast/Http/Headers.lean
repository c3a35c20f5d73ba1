import Apicast.Foundation.Bytes
import Mathlib.Data.List.Induction
import Mathlib.Logic.Function.Basic

/-!
# The names of HTTP headers

A headers object stores each header under a normalized name: underscores become dashes, and a
lower-case letter at the beginning of a word becomes upper-case. The other letters stay as they
are, so that two spellings of a header share an entry exactly if they agree on the letters inside
of their words. The only name that is recognised in any case is the one of entity tags.
-/

namespace Apicast.Headers

open Foundation Bytes

def isLetter (byte : UInt8) : Bool := isUpper byte || isLower byte

/-- `re_gsub(key, '_', '-', 'jo')`, for one byte. -/
def dash (byte : UInt8) : UInt8 := if byte = 95 then 45 else byte

/-- The bytes that `\w` matches. -/
def isWord (byte : UInt8) : Bool := isAlnum byte || byte = 95

/-- `re_gsub(key, [[\b([a-z])]], capitalize, 'jo')`. A letter is at a word boundary unless a word
byte precedes it. -/
def capitalize : (boundary : Bool) → Bytes → Bytes
  | _, [] => []
  | boundary, byte :: rest =>
      (if boundary && isLower byte then upperByte byte else byte) :: capitalize (!isWord byte) rest

def capitalizeHeader (key : Bytes) : Bytes := capitalize true (key.map dash)

/-- `headers.normalize_key`, with the only exception there is. -/
def normalizeKey (key : Bytes) : Bytes :=
  if key.map lowerByte = ascii "etag" then ascii "ETag" else capitalizeHeader key

/-- What letter case and the choice of the separator leave of a byte. -/
def fold (byte : UInt8) : UInt8 := dash (lowerByte byte)

/-- Spellings of the same header. -/
def Equivalent (first second : Bytes) : Prop := first.map fold = second.map fold

instance (first second : Bytes) : Decidable (Equivalent first second) :=
  inferInstanceAs (Decidable (first.map fold = second.map fold))

/-- A letter at the beginning is the same in both spellings. -/
def FirstSame (first second : Bytes) : Prop :=
  ∀ letter ∈ first.head?, isLetter letter = true → second.head? = some letter

/-- The letters inside of words are the same in both spellings. -/
def SameInside (first second : Bytes) : Prop :=
  ∀ (position : Nat) (before letter : UInt8), first[position]? = some before →
    isAlnum before = true → first[position + 1]? = some letter → isLetter letter = true →
      second[position + 1]? = some letter

/-- The spellings agree where the case of a letter counts. -/
def Agree (first second : Bytes) : Prop :=
  first.map lowerByte = ascii "etag" ∨ SameInside first second

/-! ### Bytes -/

section Bytewise

variable (byte : UInt8)

theorem dash_of_letter (letter : isLetter byte = true) : dash byte = byte := by
  unfold isLetter isUpper isLower at letter
  unfold dash
  grind

theorem fold_of_letter (letter : isLetter byte = true) : fold byte = lowerByte byte := by
  unfold isLetter isUpper isLower at letter
  unfold fold dash lowerByte isUpper
  grind

theorem fold_of_not_letter (other : isLetter byte = false) : fold byte = dash byte := by
  unfold isLetter isUpper isLower at other
  unfold fold lowerByte isUpper
  grind

theorem isLetter_fold : isLetter (fold byte) = isLetter byte := by
  unfold isLetter fold dash lowerByte isUpper isLower
  grind

theorem isAlnum_fold : isAlnum (fold byte) = isAlnum byte := by
  unfold isAlnum fold dash lowerByte isUpper isLower isDigit
  grind

theorem isWord_dash : isWord (dash byte) = isAlnum (fold byte) := by
  rw [isAlnum_fold]
  unfold isWord isAlnum dash isUpper isLower isDigit
  grind

/-- Dashes and underscores are the same in a name. -/
theorem fold_dash : fold (dash byte) = fold byte := by
  unfold fold dash lowerByte isUpper
  grind

theorem dash_dash : dash (dash byte) = dash byte := by
  unfold dash
  grind

/-- A letter at a boundary becomes upper-case. -/
def atBoundary : UInt8 := if isLower byte then upperByte byte else byte

/-- At a boundary, the case of a letter and the separator do not count. -/
theorem atBoundary_dash : atBoundary (dash byte) = upperByte (fold byte) := by
  unfold atBoundary fold dash lowerByte upperByte isUpper isLower
  grind

theorem fold_atBoundary : fold (atBoundary byte) = fold byte := by
  unfold atBoundary fold dash lowerByte upperByte isUpper isLower
  grind

theorem atBoundary_idempotent :
    atBoundary (dash (atBoundary (dash byte))) = atBoundary (dash byte) := by
  rw [atBoundary_dash, fold_atBoundary, fold_dash, atBoundary_dash]

end Bytewise

/-- Spellings of a byte are the same inside a word if they are no letters. -/
theorem dash_eq_iff {first second : UInt8} (same : fold first = fold second) :
    dash first = dash second ↔ (isLetter first = true → second = first) := by
  have letters : isLetter first = isLetter second := by
    rw [← isLetter_fold first, same, isLetter_fold]
  cases letter : isLetter first with
  | true =>
      rw [dash_of_letter _ letter, dash_of_letter _ (letters ▸ letter)]
      exact ⟨fun equal _ => equal.symm, fun equal => (equal rfl).symm⟩
  | false =>
      rw [← fold_of_not_letter _ letter, same, fold_of_not_letter _ (letters ▸ letter)]
      simp

/-! ### Keys -/

section Keys

variable {first second : Bytes}

theorem capitalize_cons (boundary : Bool) (byte : UInt8) (rest : Bytes) :
    capitalize boundary (byte :: rest) =
      (if boundary then atBoundary byte else byte) :: capitalize (!isWord byte) rest := by
  rw [capitalize, atBoundary]
  cases boundary <;> simp

theorem sameInside_cons {byte other : UInt8} :
    SameInside (byte :: first) (other :: second) ↔
      (isAlnum byte = true → FirstSame first second) ∧ SameInside first second := by
  constructor
  · intro same
    refine ⟨fun word letter head isLetter => ?_, fun position before letter => ?_⟩
    · rw [Option.mem_def, List.head?_eq_getElem?] at head
      rw [List.head?_eq_getElem?]
      exact same 0 byte letter rfl word head isLetter
    · exact same (position + 1) before letter
  · rintro ⟨atFirst, later⟩ position before letter
    cases position with
    | zero =>
        intro here word next isLetter
        obtain rfl : byte = before := Option.some.inj here
        have head := atFirst word letter (by rwa [Option.mem_def, List.head?_eq_getElem?]) isLetter
        rwa [List.head?_eq_getElem?] at head
    | succ position => exact later position before letter

/-- Capitalized spellings are equal if the spellings agree where the case of a letter counts. -/
theorem capitalize_eq_iff (same : Equivalent first second) (boundary : Bool) :
    capitalize boundary (first.map dash) = capitalize boundary (second.map dash) ↔
      (boundary = false → FirstSame first second) ∧ SameInside first second := by
  induction first generalizing second boundary with
  | nil =>
      obtain rfl : second = [] := by simpa [Equivalent] using same
      simp [FirstSame, SameInside]
  | cons byte first ih =>
      cases second with
      | nil => simp [Equivalent] at same
      | cons other second =>
          obtain ⟨head, tail⟩ : fold byte = fold other ∧ Equivalent first second := by
            simpa [Equivalent] using same
          have words : isWord (dash other) = isWord (dash byte) := by
            rw [isWord_dash, isWord_dash, head]
          have rest := ih tail (!isWord (dash byte))
          have boundaries : (!isWord (dash byte)) = false ↔ isAlnum byte = true := by
            rw [isWord_dash, isAlnum_fold]
            cases isAlnum byte <;> simp
          rw [sameInside_cons, ← boundaries, ← rest]
          simp only [List.map_cons, capitalize_cons, List.cons.injEq, words]
          refine and_congr_left fun _ => ?_
          cases boundary with
          | true => simp [atBoundary_dash, head]
          | false => simp [dash_eq_iff head, FirstSame]

/-- Capitals do not change which name it is. -/
theorem fold_capitalize (boundary : Bool) (key : Bytes) :
    (capitalize boundary key).map fold = key.map fold := by
  induction key generalizing boundary with
  | nil => rfl
  | cons byte key ih =>
      rw [capitalize_cons, List.map_cons, List.map_cons, ih]
      cases boundary <;> simp [fold_atBoundary]

/-- A normalized key is a spelling of the header. -/
theorem equivalent_normalizeKey (key : Bytes) : Equivalent (normalizeKey key) key := by
  unfold Equivalent normalizeKey
  split
  · next tag =>
      have folded : key.map fold = (key.map lowerByte).map dash := by
        rw [List.map_map]
        rfl
      rw [folded, tag]
      decide
  · rw [capitalizeHeader, fold_capitalize, List.map_map]
    exact List.map_congr_left fun byte _ => fold_dash byte

/-- All spellings of an entity tag are recognised. -/
theorem lower_eq_etag (same : Equivalent first second) (tag : first.map lowerByte = ascii "etag") :
    second.map lowerByte = ascii "etag" := by
  have folded (key : Bytes) : key.map fold = (key.map lowerByte).map dash := by
    rw [List.map_map]
    rfl
  have secondFold : second.map fold = ascii "etag" := by
    rw [← same, folded, tag]
    decide
  have letters : ∀ byte ∈ second, lowerByte byte = fold byte := by
    intro byte member
    have among : fold byte ∈ ascii "etag" := secondFold ▸ List.mem_map_of_mem member
    have every : ∀ folded ∈ ascii "etag", isLetter folded = true := forall_mem_of_all rfl
    exact (fold_of_letter byte (isLetter_fold byte ▸ every _ among)).symm
  rw [List.map_congr_left letters, secondFold]

/-- Two spellings share a key exactly if they agree. -/
theorem normalizeKey_eq_iff (same : Equivalent first second) :
    normalizeKey first = normalizeKey second ↔ Agree first second := by
  unfold normalizeKey Agree
  by_cases tag : first.map lowerByte = ascii "etag"
  · simp [tag, lower_eq_etag same tag]
  · have other : second.map lowerByte ≠ ascii "etag" := fun secondTag =>
      tag (lower_eq_etag same.symm secondTag)
    rw [if_neg tag, if_neg other, capitalizeHeader, capitalizeHeader, capitalize_eq_iff same]
    simp [tag]

/-- A name that is written with capitals stays as it is. -/
theorem capitalize_idempotent (boundary : Bool) (key : Bytes) :
    capitalize boundary ((capitalize boundary (key.map dash)).map dash) =
      capitalize boundary (key.map dash) := by
  induction key generalizing boundary with
  | nil => rfl
  | cons byte key ih =>
      rw [List.map_cons, capitalize_cons, List.map_cons, capitalize_cons]
      cases boundary with
      | true =>
          have words : isWord (dash (atBoundary (dash byte))) = isWord (dash byte) := by
            rw [isWord_dash, fold_atBoundary, fold_dash, isWord_dash]
          simp only [↓reduceIte, atBoundary_idempotent, words, ih]
      | false => simp only [Bool.false_eq_true, ↓reduceIte, dash_dash, ih]

/-- Normalized names stay as they are. -/
theorem normalizeKey_idempotent (key : Bytes) :
    normalizeKey (normalizeKey key) = normalizeKey key := by
  by_cases tag : key.map lowerByte = ascii "etag"
  · have exception : normalizeKey key = ascii "ETag" := if_pos tag
    rw [exception]
    decide
  · have header : normalizeKey key = capitalizeHeader key := if_neg tag
    have spelled := equivalent_normalizeKey key
    rw [header] at spelled ⊢
    have other : (capitalizeHeader key).map lowerByte ≠ ascii "etag" := fun same =>
      tag (lower_eq_etag spelled same)
    rw [normalizeKey, if_neg other]
    exact capitalize_idempotent true key

end Keys

/-! ### Objects -/

section Objects

variable {Scalar : Type*}

/-- A table is known by its reference. -/
inductive Value (Scalar : Type*)
  | scalar (value : Scalar)
  | table (reference : Nat)

/-- A headers object, and which tables have a metatable. -/
structure Object (Scalar : Type*) where
  entries : Bytes → Option (Value Scalar)
  hasMetatable : Nat → Bool

/-- `headers.normalize_value` sets a metatable and returns the same value. -/
def normalizeValue (hasMetatable : Nat → Bool) :
    Option (Value Scalar) → Option (Value Scalar) × (Nat → Bool)
  | some (.table reference) =>
      (some (.table reference), Function.update hasMetatable reference true)
  | other => (other, hasMetatable)

/-- `__newindex` -/
def newindex (object : Object Scalar) (key : Bytes) (value : Option (Value Scalar)) :
    Object Scalar :=
  let (value, hasMetatable) := normalizeValue object.hasMetatable value
  { entries := Function.update object.entries (normalizeKey key) value, hasMetatable }

/-- An assignment calls `__newindex` only if there is no entry under the key as it is. -/
def Object.write (object : Object Scalar) (key : Bytes) (value : Option (Value Scalar)) :
    Object Scalar :=
  if (object.entries key).isSome then
    { object with entries := Function.update object.entries key value }
  else newindex object key value

/-- A lookup calls `__index` only if there is no entry under the key as it is. -/
def Object.read (object : Object Scalar) (key : Bytes) : Option (Value Scalar) :=
  (object.entries key).or (object.entries (normalizeKey key))

/-- How `tablex.pairmap` adds a pair: the second value for a key is merged with the first. -/
def addPair (merge : Value Scalar → Value Scalar → Value Scalar) (object : Object Scalar)
    (pair : Bytes × Value Scalar) : Object Scalar :=
  let (value, hasMetatable) := normalizeValue object.hasMetatable (some pair.2)
  let added :=
    match object.entries (normalizeKey pair.1), value with
    | some present, some value => some (merge present value)
    | _, value => value
  { entries := Function.update object.entries (normalizeKey pair.1) added, hasMetatable }

/-- `headers.new`, with the pairs of the table in the order in which they are visited. -/
def new (merge : Value Scalar → Value Scalar → Value Scalar) (hasMetatable : Nat → Bool)
    (pairs : List (Bytes × Value Scalar)) : Object Scalar :=
  pairs.foldl (addPair merge) { entries := fun _ => none, hasMetatable }

/-- What a headers object went through. -/
structure History (Scalar : Type*) where
  merge : Value Scalar → Value Scalar → Value Scalar
  hasMetatable : Nat → Bool
  pairs : List (Bytes × Value Scalar)
  /-- The assignments, of no value in order to remove a header. -/
  writes : List (Bytes × Option (Value Scalar))

namespace History

variable (history : History Scalar)

def object : Object Scalar :=
  history.writes.foldl (fun object write => object.write write.1 write.2)
    (new history.merge history.hasMetatable history.pairs)

/-- Everything that was given to the object, in order. -/
def given : List (Bytes × Option (Value Scalar)) :=
  history.pairs.map (fun pair => (pair.1, some pair.2)) ++ history.writes

/-- The table of the constructor gives no header twice, and the spellings agree where the case of
a letter counts. -/
structure Consistent : Prop where
  distinct : history.pairs.Pairwise fun first second => ¬Equivalent first.1 second.1
  agree : ∀ first ∈ history.given, ∀ second ∈ history.given,
    Equivalent first.1 second.1 → Agree first.1 second.1

/-- A name agrees with the spellings that were used. -/
def Admits (name : Bytes) : Prop :=
  ∀ given ∈ history.given, Equivalent given.1 name → Agree given.1 name

/-- No header has two entries. -/
def SingleEntries : Prop :=
  ∀ first second, (history.object.entries first).isSome → (history.object.entries second).isSome →
    Equivalent first second → first = second

end History

/-- The value that was last given under any spelling of a name. -/
def lastGiven (given : List (Bytes × Option (Value Scalar))) (name : Bytes) :
    Option (Value Scalar) :=
  given.foldl (fun last given => if Equivalent given.1 name then given.2 else last) none

theorem normalizeValue_fst (hasMetatable : Nat → Bool) (value : Option (Value Scalar)) :
    (normalizeValue hasMetatable value).1 = value := by
  rcases value with - | ⟨scalar⟩ | ⟨reference⟩ <;> rfl

/-- The entries of an object are the values last given. -/
structure Tracks (object : Object Scalar) (given : List (Bytes × Option (Value Scalar))) :
    Prop where
  keys : ∀ key, (object.entries key).isSome → ∃ pair ∈ given, key = normalizeKey pair.1
  entry : ∀ name, (∀ pair ∈ given, Equivalent pair.1 name → Agree pair.1 name) →
    object.entries (normalizeKey name) = lastGiven given name

namespace Tracks

variable {object : Object Scalar} {given : List (Bytes × Option (Value Scalar))} {key : Bytes}
  {value : Option (Value Scalar)}

/-- A key that is there is normalized. -/
theorem normalizeKey_eq (tracks : Tracks object given) (present : (object.entries key).isSome) :
    normalizeKey key = key := by
  obtain ⟨pair, _, rfl⟩ := tracks.keys key present
  exact normalizeKey_idempotent pair.1

/-- Storing a value under the normalized key is what the sequence of values says. -/
theorem update (tracks : Tracks object given) {after : Object Scalar}
    (stored : after.entries = Function.update object.entries (normalizeKey key) value) :
    Tracks after (given ++ [(key, value)]) where
  keys other present := by
    rw [stored] at present
    by_cases same : other = normalizeKey key
    · exact ⟨(key, value), by simp, same⟩
    · rw [Function.update_of_ne same] at present
      obtain ⟨pair, member, spelled⟩ := tracks.keys other present
      exact ⟨pair, List.mem_append_left _ member, spelled⟩
  entry name admitted := by
    have before := tracks.entry name fun pair member =>
      admitted pair (List.mem_append_left _ member)
    rw [stored, lastGiven, List.foldl_append]
    by_cases same : Equivalent key name
    · have shared := (normalizeKey_eq_iff same).mpr (admitted (key, value) (by simp) same)
      rw [← shared, Function.update_self]
      exact (if_pos same).symm
    · have different : normalizeKey name ≠ normalizeKey key := fun shared =>
        same ((equivalent_normalizeKey key).symm.trans
          (shared ▸ equivalent_normalizeKey name))
      rw [Function.update_of_ne different, before]
      exact (if_neg same).symm

/-- An assignment stores under the normalized key, whichever way it takes. -/
theorem write (tracks : Tracks object given) (key : Bytes) (value : Option (Value Scalar)) :
    Tracks (object.write key value) (given ++ [(key, value)]) := by
  refine tracks.update ?_
  unfold Object.write
  split
  · next present => rw [tracks.normalizeKey_eq present]
  · simp [newindex, normalizeValue_fst]

/-- After some writes the object tracks what it was given and the writes. -/
theorem writes (tracks : Tracks object given) (writes : List (Bytes × Option (Value Scalar))) :
    Tracks (writes.foldl (fun object write => object.write write.1 write.2) object)
      (given ++ writes) := by
  induction writes generalizing object given with
  | nil => simpa using tracks
  | cons write writes ih => simpa using ih (tracks.write write.1 write.2)

/-- The first pair for a header is stored as it is. -/
theorem addPair (tracks : Tracks object given) {pair : Bytes × Value Scalar}
    (fresh : ∀ other ∈ given, ¬Equivalent other.1 pair.1)
    (merge : Value Scalar → Value Scalar → Value Scalar) :
    Tracks (addPair merge object pair) (given ++ [(pair.1, some pair.2)]) := by
  have absent : object.entries (normalizeKey pair.1) = none := by
    by_contra present
    obtain ⟨other, member, spelled⟩ := tracks.keys _ (Option.isSome_iff_ne_none.mpr present)
    exact fresh other member ((equivalent_normalizeKey other.1).symm.trans
      (spelled ▸ equivalent_normalizeKey pair.1))
  refine tracks.update ?_
  simp [Headers.addPair, absent, normalizeValue_fst]

/-- The constructor stores the pairs of a table that gives no header twice. -/
theorem new (merge : Value Scalar → Value Scalar → Value Scalar) (hasMetatable : Nat → Bool)
    {pairs : List (Bytes × Value Scalar)}
    (distinct : pairs.Pairwise fun first second => ¬Equivalent first.1 second.1) :
    Tracks (new merge hasMetatable pairs) (pairs.map fun pair => (pair.1, some pair.2)) := by
  induction pairs using List.reverseRecOn with
  | nil => exact ⟨fun key present => (by cases present), fun name _ => rfl⟩
  | append_singleton pairs pair ih =>
      obtain ⟨earlier, -, fresh⟩ := List.pairwise_append.mp distinct
      rw [Headers.new, List.foldl_append, List.map_append]
      refine (ih earlier).addPair ?_ merge
      intro other member
      obtain ⟨origin, among, rfl⟩ := List.mem_map.mp member
      exact fresh origin among pair (by simp)

end Tracks

/-- A consistent history leaves an object that tracks what it was given. -/
theorem History.tracks {history : History Scalar} (consistent : history.Consistent) :
    Tracks history.object history.given :=
  (Tracks.new history.merge history.hasMetatable consistent.distinct).writes history.writes

/-- **Names of headers.** Spellings of a header share a key exactly if they agree where the case
of a letter counts, and normalizing is idempotent. After any history with such spellings only, a
read returns what was last given under any of them, and no header has two entries. -/
theorem insensitive_iff_agree (Scalar : Type*) :
    (∀ first second, Equivalent first second →
      (normalizeKey first = normalizeKey second ↔ Agree first second)) ∧
    (∀ key, normalizeKey (normalizeKey key) = normalizeKey key) ∧
    ∀ history : History Scalar, history.Consistent → history.SingleEntries ∧
      ∀ name, history.Admits name → history.object.read name = lastGiven history.given name := by
  refine ⟨fun _ _ => normalizeKey_eq_iff, normalizeKey_idempotent, fun history consistent => ?_⟩
  have tracks := history.tracks consistent
  constructor
  · intro first second firstPresent secondPresent same
    obtain ⟨one, oneGiven, rfl⟩ := tracks.keys first firstPresent
    obtain ⟨two, twoGiven, rfl⟩ := tracks.keys second secondPresent
    have spelled : Equivalent one.1 two.1 :=
      (equivalent_normalizeKey one.1).symm.trans (same.trans (equivalent_normalizeKey two.1))
    exact (normalizeKey_eq_iff spelled).mpr (consistent.agree one oneGiven two twoGiven spelled)
  · intro name admitted
    rw [← tracks.entry name admitted, Object.read]
    cases present : history.object.entries name with
    | none => rfl
    | some value =>
        rw [tracks.normalizeKey_eq (by rw [present]; rfl), present]
        rfl

end Objects

/-- A header that is given to the constructor and then assigned under another spelling. -/
def respelled : History Nat where
  merge _ second := second
  hasMetatable _ := false
  pairs := [(ascii "x-request-id", .scalar 1)]
  writes := [(ascii "X_Request-id", some (.scalar 2))]

theorem normalizeKey_respelled :
    ∀ given ∈ respelled.given, normalizeKey given.1 = ascii "X-Request-Id" := by
  intro given member
  rcases List.mem_cons.mp member with rfl | member
  · decide
  · obtain rfl := List.mem_singleton.mp member
    decide

/-- Reading finds what was given last, in whatever spelling. -/
theorem read_respelled :
    respelled.object.read (ascii "X-Request-Id") = some (.scalar 2) := by
  refine ((insensitive_iff_agree Nat).2.2 respelled ⟨List.pairwise_singleton _ _, ?_⟩).2 _ ?_
  · intro first firstGiven second secondGiven same
    refine (normalizeKey_eq_iff same).mp ?_
    rw [normalizeKey_respelled first firstGiven, normalizeKey_respelled second secondGiven]
  · intro given member same
    refine (normalizeKey_eq_iff same).mp ?_
    rw [normalizeKey_respelled given member]
    decide

/-- A header that is assigned in lower and in upper case. -/
def shouted : History Nat where
  merge _ second := second
  hasMetatable _ := false
  pairs := []
  writes := [(ascii "x-request-id", some (.scalar 1)), (ascii "X-REQUEST-ID", some (.scalar 2))]

theorem not_insensitive_shouted :
    Equivalent (ascii "x-request-id") (ascii "X-REQUEST-ID") ∧
      normalizeKey (ascii "x-request-id") ≠ normalizeKey (ascii "X-REQUEST-ID") ∧
      shouted.object.read (ascii "x-request-id") = some (.scalar 1) ∧
      lastGiven shouted.given (ascii "x-request-id") = some (.scalar 2) ∧
      ¬shouted.SingleEntries := by
  have different : normalizeKey (ascii "x-request-id") ≠ normalizeKey (ascii "X-REQUEST-ID") := by
    decide
  refine ⟨by decide, different, rfl, rfl, fun single => different ?_⟩
  exact single _ _ rfl rfl (by decide)

end Apicast.Headers
