import Apicast.Foundation.ExpiringCache
import Apicast.Foundation.Json

/-!
# The cache of introspected tokens

`policy/token_introspection/tokens_cache.lua`. The introspection information is any
JSON value. Arithmetic on a value that is no number raises an error, and so does
storing under a missing token. Numbers are of any type that has the operations.
-/

namespace Apicast

open Foundation

/-- What evaluating an operand that has no number raises. -/
def arithmeticOnNil : String := "attempt to perform arithmetic on a nil value"

def nilTableIndex : String := "table index is nil"

def indexOfNil : String := "attempt to index a nil value"

namespace TokensCache

variable {Number : Type*} [Zero Number] [Add Number] [Sub Number] [LT Number] [DecidableLT Number]
  (tonumber : String → Option Number)

/-- `ttl_from_introspection`; only `nil` and `false` count as a missing expiry. -/
def ttlFromIntrospection (time : Number) (introspectionInfo : Json Number) :
    Except String (Option Number) :=
  match introspectionInfo.field "exp" with
  | none => .ok none
  | some tokenExp =>
      if tokenExp.isFalse then .ok none
      else
        match tokenExp.toNumber tonumber with
        | some exp => .ok (some (exp - time))
        | none => .error arithmeticOnNil

/-- The time to live after the configured maximum is applied. -/
def boundedTtl (maxTtl ttl : Option Number) : Option Number :=
  match maxTtl, ttl with
  | some maxTtl, some ttl => if maxTtl < ttl then some maxTtl else some ttl
  | some maxTtl, none => some maxTtl
  | none, ttl => ttl

/-- What `tokens_cache.lua` stores, for the tokens that it can. -/
abbrev Storage (Number : Type*) := ExpiringCache Number String (Json Number)

/-- `_M:get`; nothing is stored under a missing token. -/
def get (storage : Storage Number) (now : Number) (token : Option String) :
    Option (Json Number) :=
  token.bind fun token => ExpiringCache.get storage now token

/-- `_M:set` -/
def set (maxTtl : Option Number) (storage : Storage Number) (time now : Number)
    (token : Option String) (introspectionInfo : Json Number) : Except String (Storage Number) :=
  match ttlFromIntrospection tonumber time introspectionInfo with
  | .error message => .error message
  | .ok ttl =>
      match boundedTtl maxTtl ttl with
      | some ttl =>
          if 0 < ttl then
            match token with
            | some token => .ok (ExpiringCache.set storage now token introspectionInfo (some ttl))
            | none => .error nilTableIndex
          else .ok storage
      | none => .ok storage

/-- The expiry is there, but no number can be read from it. -/
def UnreadableExpiry (introspectionInfo : Json Number) : Prop :=
  ∃ tokenExp ∈ introspectionInfo.field "exp",
    tokenExp.isFalse = false ∧ tokenExp.toNumber tonumber = none

/-- The information is stored for a positive time to live. -/
def Cacheable (maxTtl : Option Number) (time : Number) (introspectionInfo : Json Number) : Prop :=
  ∃ ttl, ttlFromIntrospection tonumber time introspectionInfo = .ok ttl ∧
    ∃ bounded ∈ boundedTtl maxTtl ttl, 0 < bounded

section Expiry

variable {tonumber} {introspectionInfo : Json Number}

omit [Zero Number] [Add Number] [LT Number] [DecidableLT Number] in
/-- Reading the expiry raises an error exactly when it is unreadable. -/
theorem ttlFromIntrospection_error_iff (time : Number) {message : String} :
    ttlFromIntrospection tonumber time introspectionInfo = .error message ↔
      UnreadableExpiry tonumber introspectionInfo ∧ message = arithmeticOnNil := by
  unfold ttlFromIntrospection UnreadableExpiry
  cases introspectionInfo.field "exp" with
  | none =>
      refine iff_of_false nofun ?_
      rintro ⟨⟨tokenExp, present, _⟩, _⟩
      cases present
  | some tokenExp =>
      simp only [Option.mem_some_iff, exists_eq_left']
      cases tokenExp.isFalse with
      | true => exact iff_of_false nofun nofun
      | false =>
          cases tokenExp.toNumber tonumber with
          | some exp => exact iff_of_false nofun nofun
          | none =>
              simp only [Bool.false_eq_true, ↓reduceIte, Except.error.injEq, true_and]
              exact eq_comm

end Expiry

section Writing

variable {tonumber} {maxTtl : Option Number} {storage : Storage Number} {time now : Number}
  {token : Option String} {introspectionInfo : Json Number}

/-- A write raises an error exactly when the expiry is unreadable, or when there is no
token to store a cacheable information under. -/
theorem set_error_iff (storage : Storage Number) (now : Number) {message : String} :
    set tonumber maxTtl storage time now token introspectionInfo = .error message ↔
      (UnreadableExpiry tonumber introspectionInfo ∧ message = arithmeticOnNil) ∨
        (Cacheable tonumber maxTtl time introspectionInfo ∧ token = none ∧
          message = nilTableIndex) := by
  rw [← ttlFromIntrospection_error_iff time]
  unfold set Cacheable
  cases read : ttlFromIntrospection tonumber time introspectionInfo with
  | error raised =>
      simp only [Except.error.injEq, reduceCtorEq, false_and, exists_false, or_false]
  | ok ttl =>
      simp only [Except.ok.injEq, exists_eq_left', reduceCtorEq, false_or]
      cases boundedTtl maxTtl ttl with
      | none =>
          refine iff_of_false nofun ?_
          rintro ⟨⟨bounded, present, _⟩, _⟩
          cases present
      | some bounded =>
          simp only [Option.mem_some_iff, exists_eq_left']
          by_cases positive : 0 < bounded
          · cases token with
            | none =>
                simp only [positive, ↓reduceIte, Except.error.injEq, true_and]
                exact eq_comm
            | some token =>
                simp only [positive, ↓reduceIte]
                exact iff_of_false nofun nofun
          · simp only [positive, ↓reduceIte, false_and]
            exact iff_of_false nofun not_false

/-- A write that stores anything stores the information for the bounded time to live. -/
theorem set_eq_ok {written : Storage Number}
    (wrote : set tonumber maxTtl storage time now token introspectionInfo = .ok written) :
    written = storage ∨ ∃ key ttl bounded, token = some key ∧
      ttlFromIntrospection tonumber time introspectionInfo = .ok ttl ∧
      boundedTtl maxTtl ttl = some bounded ∧
      written = ExpiringCache.set storage now key introspectionInfo (some bounded) := by
  unfold set at wrote
  cases read : ttlFromIntrospection tonumber time introspectionInfo with
  | error raised =>
      rw [read] at wrote
      cases wrote
  | ok ttl =>
      rw [read] at wrote
      cases bound : boundedTtl maxTtl ttl with
      | none =>
          simp only [bound] at wrote
          exact .inl (Except.ok.inj wrote).symm
      | some bounded =>
          by_cases positive : 0 < bounded
          · cases token with
            | none =>
                simp only [bound, positive, ↓reduceIte] at wrote
                cases wrote
            | some key =>
                simp only [bound, positive, ↓reduceIte] at wrote
                exact .inr ⟨key, ttl, bounded, rfl, rfl, bound, (Except.ok.inj wrote).symm⟩
          · simp only [bound, positive, ↓reduceIte] at wrote
            exact .inl (Except.ok.inj wrote).symm

/-- What is found after a write is what was written, or was there before. -/
theorem get_set {written : Storage Number} {later : Number} {other : Option String}
    {found : Json Number}
    (wrote : set tonumber maxTtl storage time now token introspectionInfo = .ok written)
    (present : get written later other = some found) :
    (other = token ∧ found = introspectionInfo) ∨ get storage later other = some found := by
  rcases set_eq_ok wrote with rfl | ⟨key, ttl, bounded, rfl, -, -, rfl⟩
  · exact .inr present
  · obtain ⟨otherKey, rfl, value⟩ := Option.bind_eq_some_iff.mp present
    rcases ExpiringCache.get_set value with ⟨same, info, _⟩ | before
    · exact .inl ⟨congrArg some same, info⟩
    · exact .inr before

end Writing

end TokensCache

end Apicast
