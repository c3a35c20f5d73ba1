import Apicast.UsageFormat

/-!
# The keys of the proxy's authorization cache

The key of an authorization is put together in two phases of `proxy.lua`: the service and
the credentials in `_M:rewrite`, the usage and the extra parameters in `_M:authorize`. The
parts are joined by colons, and only the usage and the extra parameters are escaped.
-/

namespace Apicast.Proxy

open Foundation

/-- The credentials that a request carries, by the version of the service. -/
inductive Credentials
  | userKey (key : Option String)
  | application (id key : Option String)
  | accessToken (token : Option String)
  deriving DecidableEq, Repr

/-- The integer keys of the table of credentials. -/
def Credentials.tuple : Credentials → List (Option String)
  | .userKey key => [key]
  | .application appId appKey => [appId, appKey]
  | .accessToken token => [token]

/-- What the authorization of a request depends on. -/
structure AuthRequest where
  serviceId : String
  credentials : Credentials
  usage : Usage
  /-- `extra_params_backend_authrep`, in the order in which the table is gone through. -/
  extraParams : List (String × String)

namespace AuthRequest

/-- `ngx.var.cached_key` after `_M:rewrite`, when all credentials are there. -/
def rewriteKey (request : AuthRequest) : Option String :=
  if request.credentials.tuple.all Option.isSome then
    some (Delimited.joinAll ':' (request.serviceId :: request.credentials.tuple.filterMap id))
  else none

/-- The key with which `_M:authorize` goes on, when the usage is not empty. -/
def authorizeKey (request : AuthRequest) (cachedKey : String) : Option String :=
  let encodedUsage := request.usage.encodedFormat
  if encodedUsage = "" then none
  else
    let cachedKey := cachedKey ++ ":" ++ encodedUsage
    let encodedExtraParams := UriEscape.encodeArgs request.extraParams
    if encodedExtraParams ≠ "" then some (cachedKey ++ ":" ++ encodedExtraParams)
    else some cachedKey

/-- The key under which the authorization of a request is cached. -/
def cachedKey (request : AuthRequest) : Option String :=
  request.rewriteKey.bind request.authorizeKey

/-- The same service, credentials, usage and extra parameters. -/
structure Same (first second : AuthRequest) : Prop where
  serviceId : first.serviceId = second.serviceId
  credentials : first.credentials = second.credentials
  usage : first.usage.Same second.usage
  extraParams : first.extraParams.Perm second.extraParams

/-- The service and the credentials, cut at every colon. -/
def pieces (request : AuthRequest) : List String :=
  (request.serviceId :: request.credentials.tuple.filterMap id).flatMap (Delimited.pieces ':')

/-- The parts of the key after the credentials. -/
def encodedParts (request : AuthRequest) : List String :=
  request.usage.encodedFormat ::
    if request.extraParams = [] then [] else [UriEscape.encodeArgs request.extraParams]

variable {first second : AuthRequest} {key other : String}

theorem encodedParts_of_nil {request : AuthRequest} (extra : request.extraParams = []) :
    request.encodedParts = [request.usage.encodedFormat] := by
  unfold encodedParts
  rw [if_pos extra]

theorem encodedParts_of_ne_nil {request : AuthRequest} (extra : request.extraParams ≠ []) :
    request.encodedParts =
      [request.usage.encodedFormat, UriEscape.encodeArgs request.extraParams] := by
  unfold encodedParts
  rw [if_neg extra]

theorem flatMap_encodedParts (request : AuthRequest) :
    request.encodedParts.flatMap (Delimited.pieces ':') = request.encodedParts := by
  have free (pairs : List (String × String)) :
      Delimited.Free ':' (UriEscape.encodeArgs pairs) :=
    UriEscape.free_encodeArgs rfl (by decide) (by decide) (by decide) pairs
  apply Delimited.flatMap_pieces
  intro part member
  unfold encodedParts at member
  rcases List.mem_cons.mp member with usage | extra
  · rw [usage, Usage.encodedFormat_eq_encodeArgs]
    exact free _
  · split at extra
    · cases extra
    · rw [List.mem_singleton.mp extra]
      exact free _

/-- The key joins the service, the credentials and the encoded parts. -/
theorem eq_joinAll_of_cachedKey (keyed : first.cachedKey = some key) :
    key = Delimited.joinAll ':'
      (first.serviceId :: first.credentials.tuple.filterMap id ++ first.encodedParts) := by
  obtain ⟨rewritten, complete, authorized⟩ := Option.bind_eq_some_iff.mp keyed
  unfold rewriteKey at complete
  split at complete
  · cases complete
    have values : first.serviceId :: first.credentials.tuple.filterMap id ≠ [] :=
      List.cons_ne_nil _ _
    have written (fields : List String) (nonempty : fields ≠ []) (part : String) :
        Delimited.joinAll ':' fields ++ ":" ++ part = Delimited.joinAll ':' (fields ++ [part]) := by
      rw [Delimited.joinAll_concat nonempty, String.append_assoc]
      rfl
    unfold authorizeKey at authorized
    dsimp only at authorized
    split at authorized
    · cases authorized
    · rw [written _ values] at authorized
      by_cases extra : first.extraParams = []
      · rw [if_neg (not_not.mpr (UriEscape.encodeArgs_eq_empty.mpr extra))] at authorized
        rw [encodedParts_of_nil extra]
        exact (Option.some.inj authorized).symm
      · rw [if_pos (UriEscape.encodeArgs_eq_empty.not.mpr extra),
          written _ (List.append_ne_nil_of_left_ne_nil values _)] at authorized
        rw [encodedParts_of_ne_nil extra, ← Option.some.inj authorized, List.append_assoc,
          List.singleton_append]
  · cases complete

/-- Two keys are equal exactly when the pieces and the encoded parts are. -/
theorem cachedKey_eq_iff (keyed : first.cachedKey = some key)
    (otherKeyed : second.cachedKey = some other) :
    key = other ↔ first.pieces ++ first.encodedParts = second.pieces ++ second.encodedParts := by
  have nonempty (request : AuthRequest) :
      request.serviceId :: request.credentials.tuple.filterMap id ++ request.encodedParts ≠ [] :=
    List.cons_ne_nil _ _
  rw [eq_joinAll_of_cachedKey keyed, eq_joinAll_of_cachedKey otherKeyed,
    Delimited.joinAll_eq_iff (nonempty first) (nonempty second), List.flatMap_append,
    List.flatMap_append, flatMap_encodedParts, flatMap_encodedParts]
  rfl

/-- A colon belongs to different values of the service and the credentials. -/
def SeparatorMoved (first second : AuthRequest) : Prop :=
  first.pieces = second.pieces ∧ first.usage.WrittenAlike second.usage ∧
    first.extraParams = second.extraParams ∧
      ¬ (first.serviceId = second.serviceId ∧ first.credentials = second.credentials)

/-- Different amounts of a metric are rounded to the same text. -/
def AmountsRounded (first second : AuthRequest) : Prop :=
  first.serviceId = second.serviceId ∧ first.credentials = second.credentials ∧
    first.extraParams = second.extraParams ∧ first.usage.WrittenAlike second.usage ∧
      ¬ first.usage.Same second.usage

/-- The last value of one request reads as the usage of the other, whose extra parameters read
as the usage of the first. -/
def UsageSwallowed (first second : AuthRequest) : Prop :=
  first.extraParams = [] ∧ second.extraParams ≠ [] ∧
    first.pieces = second.pieces ++ [second.usage.encodedFormat] ∧
      first.usage.writtenFormat = second.extraParams

def Confused (first second : AuthRequest) : Prop :=
  first.SeparatorMoved second ∨ first.AmountsRounded second ∨ first.UsageSwallowed second ∨
    second.UsageSwallowed first

/-- Without extra parameters in either, or with them in both, the parts are compared one by
one. -/
theorem append_encodedParts_eq_iff (alike : first.extraParams = [] ↔ second.extraParams = []) :
    first.pieces ++ first.encodedParts = second.pieces ++ second.encodedParts ↔
      first.pieces = second.pieces ∧ first.usage.WrittenAlike second.usage ∧
        first.extraParams = second.extraParams := by
  by_cases extra : first.extraParams = []
  · have otherExtra := alike.mp extra
    rw [encodedParts_of_nil extra, encodedParts_of_nil otherExtra, List.append_singleton_inj,
      Usage.encodedFormat_eq_iff]
    simp only [extra, otherExtra, and_true]
  · have otherExtra := alike.not.mp extra
    rw [encodedParts_of_ne_nil extra, encodedParts_of_ne_nil otherExtra]
    constructor
    · intro equal
      obtain ⟨samePieces, parts⟩ := List.append_inj' equal rfl
      obtain ⟨usages, extras⟩ := List.cons.inj parts
      exact ⟨samePieces, Usage.encodedFormat_eq_iff.mp usages,
        UriEscape.encodeArgs_injective (List.singleton_inj.mp extras)⟩
    · rintro ⟨samePieces, usages, extras⟩
      rw [samePieces, Usage.encodedFormat_eq_iff.mpr usages, extras]

/-- When only the second has extra parameters, they take the place of the usage of the first. -/
theorem append_encodedParts_eq_swallowed (extra : first.extraParams = [])
    (otherExtra : second.extraParams ≠ []) :
    first.pieces ++ first.encodedParts = second.pieces ++ second.encodedParts ↔
      first.UsageSwallowed second := by
  have usages : first.usage.encodedFormat = UriEscape.encodeArgs second.extraParams ↔
      first.usage.writtenFormat = second.extraParams := by
    rw [Usage.encodedFormat_eq_encodeArgs]
    exact ⟨UriEscape.encodeArgs_injective, congrArg _⟩
  unfold UsageSwallowed
  rw [encodedParts_of_nil extra, encodedParts_of_ne_nil otherExtra,
    List.append_cons second.pieces, List.append_singleton_inj, usages]
  simp only [extra, otherExtra, ne_eq, not_false_eq_true, true_and]

theorem Same.nil_iff (same : first.Same second) :
    first.extraParams = [] ↔ second.extraParams = [] := by
  rw [← List.length_eq_zero_iff, same.extraParams.length_eq, List.length_eq_zero_iff]

/-- When only the second has extra parameters, the requests can be confused in one way. -/
theorem confused_iff_swallowed (extra : first.extraParams = [])
    (otherExtra : second.extraParams ≠ []) :
    first.Confused second ↔ first.UsageSwallowed second := by
  constructor
  · rintro (⟨_, _, equal, _⟩ | ⟨_, _, equal, _⟩ | swallowed | swallowed)
    · exact absurd (equal.symm.trans extra) otherExtra
    · exact absurd (equal.symm.trans extra) otherExtra
    · exact swallowed
    · exact absurd swallowed.1 otherExtra
  · exact fun swallowed => Or.inr (Or.inr (Or.inl swallowed))

theorem Confused.symm (confused : first.Confused second) : second.Confused first := by
  rcases confused with ⟨pieces, usages, extras, values⟩ |
    ⟨services, creds, extras, usages, amounts⟩ |
    swallowed | swallowed
  · refine Or.inl ⟨pieces.symm, fun metric => (usages metric).symm, extras.symm, ?_⟩
    exact fun same => values ⟨same.1.symm, same.2.symm⟩
  · refine Or.inr (Or.inl ⟨services.symm, creds.symm, extras.symm,
      fun metric => (usages metric).symm, ?_⟩)
    exact fun same => amounts same.symm
  · exact Or.inr (Or.inr (Or.inr swallowed))
  · exact Or.inr (Or.inr (Or.inl swallowed))

theorem confused_comm : first.Confused second ↔ second.Confused first :=
  ⟨Confused.symm, Confused.symm⟩

/-- For every two requests whose authorizations are cached under a key: equal keys mean equal
requests exactly when the requests cannot be confused. -/
theorem same_of_cachedKey_iff (keyed : first.cachedKey = some key)
    (otherKeyed : second.cachedKey = some other) :
    (key = other → first.Same second) ↔ ¬ first.Confused second := by
  rw [cachedKey_eq_iff keyed otherKeyed]
  by_cases alike : first.extraParams = [] ↔ second.extraParams = []
  · rw [append_encodedParts_eq_iff alike]
    constructor
    · rintro injective (⟨samePieces, usages, extras, different⟩ | ⟨services, creds, extras, usages,
        different⟩ | swallowed | swallowed)
      · have same := injective ⟨samePieces, usages, extras⟩
        exact different ⟨same.serviceId, same.credentials⟩
      · have samePieces : first.pieces = second.pieces := by
          unfold pieces
          rw [services, creds]
        exact different (injective ⟨samePieces, usages, extras⟩).usage
      · exact swallowed.2.1 (alike.mp swallowed.1)
      · exact swallowed.2.1 (alike.mpr swallowed.1)
    · rintro unconfused ⟨samePieces, usages, extras⟩
      by_contra different
      by_cases values : first.serviceId = second.serviceId ∧ first.credentials = second.credentials
      · by_cases amounts : first.usage.Same second.usage
        · exact different ⟨values.1, values.2, amounts, List.Perm.of_eq extras⟩
        · exact unconfused (Or.inr (Or.inl ⟨values.1, values.2, extras, usages, amounts⟩))
      · exact unconfused (Or.inl ⟨samePieces, usages, extras, values⟩)
  · have unequal : ¬ first.Same second := fun same => alike same.nil_iff
    simp only [unequal, imp_false]
    by_cases extra : first.extraParams = []
    · have otherExtra : second.extraParams ≠ [] := fun none => alike (iff_of_true extra none)
      rw [append_encodedParts_eq_swallowed extra otherExtra,
        confused_iff_swallowed extra otherExtra]
    · have otherExtra : second.extraParams = [] := by
        by_contra filled
        exact alike (iff_of_false extra filled)
      rw [eq_comm, append_encodedParts_eq_swallowed otherExtra extra, confused_comm,
        confused_iff_swallowed otherExtra extra]

/-- A request of one service that counts for one metric. -/
private def hit (credentials : Credentials) : AuthRequest where
  serviceId := "42"
  credentials := credentials
  usage := Usage.new.add "hits" 1
  extraParams := []

/-- Requests with different user keys cannot be confused. -/
theorem same_of_cachedKey_userKeys :
    ¬ (hit (.userKey (some "a"))).Confused (hit (.userKey (some "b:c"))) := by
  have keyed : (hit (.userKey (some "a"))).cachedKey = some "42:a:usage%5Bhits%5D=1" := by decide
  have otherKeyed : (hit (.userKey (some "b:c"))).cachedKey =
      some "42:b:c:usage%5Bhits%5D=1" := by decide
  apply (same_of_cachedKey_iff keyed otherKeyed).mp
  have different : "42:a:usage%5Bhits%5D=1" ≠ "42:b:c:usage%5Bhits%5D=1" := by decide
  exact fun equal => absurd equal different

/-- Two applications whose identifiers and keys have a colon between different letters: the
authorization of one is found for the other. -/
theorem same_of_cachedKey_confused :
    (hit (.application (some "a:b") (some "c"))).cachedKey =
        some "42:a:b:c:usage%5Bhits%5D=1" ∧
      (hit (.application (some "a") (some "b:c"))).cachedKey =
        some "42:a:b:c:usage%5Bhits%5D=1" ∧
      ¬ (hit (.application (some "a:b") (some "c"))).Same
        (hit (.application (some "a") (some "b:c"))) := by
  refine ⟨by decide, by decide, ?_⟩
  intro same
  have different : Credentials.application (some "a:b") (some "c") ≠
      .application (some "a") (some "b:c") := by decide
  exact different same.credentials

end AuthRequest

end Apicast.Proxy
