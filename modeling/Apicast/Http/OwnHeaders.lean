import Apicast.Http.ForwardedRequest

/-!
# The gateway's own headers

The gateway adds the address of the client and its secret token to what it forwards, and takes the
debug header out. It does so under one spelling, and the HTTP client keeps one spelling of each
name. A client that uses another one may replace what the gateway said.
-/

namespace Apicast

open Foundation

namespace ForwardedRequest

open HeadersPolicy (HeaderValue)

open HeaderTables

section Spelling

variable {environment : Environment} {headers : Lines}

theorem eq_of_own {own other : String × Option String} (listed : own ∈ environment.own)
    (otherListed : other ∈ environment.own) (same : lower own.1 = lower other.1) : own = other := by
  have names :
      (["X-Real-IP", "X-3scale-debug", "X-3scale-proxy-secret-token"].map lower).Nodup := by
    decide
  have distinct : (environment.own.map fun own => lower own.1).Nodup := names
  exact List.inj_on_of_nodup_map distinct listed otherListed same

/-- The own headers arrive in every order if and only if no other spelling stands against one. -/
theorem sent_own_iff :
    (∀ traversal : RawHeaders, traversal.Perm (ownHeaders environment headers.raw) →
      ∀ own ∈ environment.own, traversal.sent own.1 = own.2.map .text) ↔
      ∀ own ∈ environment.own, ∀ header ∈ headers.raw, lower header.1 = lower own.1 →
        header.1 ≠ own.1 → own.2.map .text = some header.2 := by
  constructor
  · intro arrive own listed header member same different
    have kept : header ∈ ownHeaders environment headers.raw :=
      mem_ownHeaders.mpr (.inl ⟨member, fun other otherListed spelled => by
        obtain rfl := eq_of_own listed otherListed (same.symm.trans (congrArg lower spelled))
        exact different spelled⟩)
    obtain ⟨before, after, table⟩ := List.append_of_mem kept
    have order : (before ++ after ++ [header]).Perm (ownHeaders environment headers.raw) := by
      rw [table]
      exact (List.perm_append_singleton header _).trans List.perm_middle.symm
    rw [← arrive _ order own listed]
    exact sent_concat same
  · intro unforged traversal order own listed
    have alone : ∀ header ∈ traversal, lower header.1 = lower own.1 →
        some header.2 = own.2.map .text := by
      intro header member same
      rcases mem_ownHeaders.mp (order.mem_iff.mp member) with
        ⟨inside, foreign⟩ | ⟨other, otherListed, text, value, rfl⟩
      · exact (unforged own listed header inside same (foreign own listed)).symm
      · obtain rfl := eq_of_own otherListed listed same
        rw [value]
        rfl
    cases value : own.2 with
    | none =>
        refine sent_eq_none fun header member same => ?_
        have missing := alone header member same
        rw [value] at missing
        cases missing
    | some text =>
        have kept : (own.1, HeaderValue.text text) ∈ ownHeaders environment headers.raw :=
          mem_ownHeaders.mpr (.inr ⟨own, listed, text, value, rfl⟩)
        refine sent_eq_some ⟨_, order.mem_iff.mpr kept, rfl⟩ fun header member same => ?_
        have found := alone header member same
        rw [value] at found
        exact Option.some.inj found

end Spelling

section Forging

variable {environment : Environment} {requestUnbuffered : Bool} {payload : Bytes}

/-- No header of the client is one of the gateway's own in another spelling and with another
value. -/
def Environment.Unforged (environment : Environment) : Prop :=
  ∀ own ∈ environment.own, ∀ header ∈ environment.headers.raw,
    lower header.1 = lower own.1 → header.1 ≠ own.1 → own.2.map .text = some header.2

/-- The headers differ at most in how they announce the body. -/
inductive Reframes (original : Lines) : Lines → Prop
  | same : Reframes original original
  | encoding {headers : Lines} (value : Option String) : Reframes original headers →
      Reframes original (headers.set "Transfer-Encoding" value)
  | length {headers : Lines} (value : Option String) : Reframes original headers →
      Reframes original (headers.set "Content-Length" value)

/-- Framing the body anew leaves the spellings of other headers alone. -/
theorem Reframes.mem_raw_iff {original headers : Lines} (reframes : Reframes original headers)
    {header : String × HeaderValue} (encoding : lower header.1 ≠ lower "Transfer-Encoding")
    (length : lower header.1 ≠ lower "Content-Length") :
    header ∈ headers.raw ↔ header ∈ original.raw := by
  induction reframes with
  | same => rfl
  | encoding value _ ih => rw [mem_raw_set encoding, ih]
  | length value _ ih => rw [mem_raw_set length, ih]

theorem Reframes.unchunked {original headers : Lines} (reframes : Reframes original headers)
    (isChunked : Bool) : Reframes original (unchunked isChunked headers) := by
  unfold ForwardedRequest.unchunked
  split
  · exact .encoding none reframes
  · exact reframes

theorem reframes_bufferedBody (receives : environment.Receives payload) {isChunked : Bool}
    {body : Body} {headers : Lines}
    (read : bufferedBody environment isChunked = .proceeds (body, headers)) :
    Reframes environment.headers headers := by
  have buffered : Reframes environment.headers environment.readBody := by
    rcases receives.read with same | ⟨-, same⟩
    · exact same ▸ .same
    · exact same ▸ .length _ .same
  unfold bufferedBody at read
  split at read
  · cases read
    exact buffered.unchunked _
  · cases read
    exact buffered.unchunked _
  · split at read
    · cases read
    · cases read
      refine Reframes.unchunked ?_ _
      split
      · exact .length _ buffered
      · exact buffered

/-- However the body is taken, only the headers that frame it are changed. -/
theorem reframes_forwardedBody (receives : environment.Receives payload)
    {isChunked isUrlencoded : Bool} {body : Body} {headers : Lines}
    (taken : forwardedBody environment requestUnbuffered isChunked isUrlencoded =
      .ok (.proceeds (body, headers))) : Reframes environment.headers headers := by
  unfold forwardedBody at taken
  split at taken
  · split at taken
    · unfold socketBody at taken
      split at taken
      · cases taken
      · rename_i reader _
        rw [getClientBodyReader_eq receives] at taken
        cases taken
        exact .same
    · exact reframes_bufferedBody receives (Except.ok.inj taken)
  · cases taken
    exact .same

/-- A request that is forwarded has a body that was taken from the client. -/
theorem proceeds_of_forwarded {parameters : Parameters}
    (forwarded : forwardHttpsRequest environment requestUnbuffered = .ok (.proceeds parameters)) :
    ∃ isChunked isUrlencoded body headers,
      forwardedBody environment requestUnbuffered isChunked isUrlencoded =
        .ok (.proceeds (body, headers)) ∧
      parameters = ForwardedRequest.parameters environment body headers := by
  unfold forwardHttpsRequest at forwarded
  split at forwarded
  · cases forwarded
  · cases forwarded
  · rename_i isChunked isUrlencoded _ _
    cases taken : forwardedBody environment requestUnbuffered isChunked isUrlencoded with
    | error raised =>
        rw [taken] at forwarded
        cases forwarded
    | ok attempt =>
        rw [taken] at forwarded
        cases attempt with
        | exit status => cases forwarded
        | proceeds result =>
            cases forwarded
            exact ⟨_, _, _, _, taken, rfl⟩

/-- **The own headers.** In every order in which the HTTP client is handed the headers, it sends
the address of the client, the secret token and no debug header, if and only if the client did not
send one of them in another spelling. -/
theorem own_headers_iff (environment : Environment) (requestUnbuffered : Bool) (payload : Bytes)
    (parameters : Parameters) (receives : environment.Receives payload)
    (forwarded : forwardHttpsRequest environment requestUnbuffered = .ok (.proceeds parameters)) :
    (∀ traversal : RawHeaders, traversal.Perm parameters.headers →
      ∀ own ∈ environment.own, traversal.sent own.1 = own.2.map .text) ↔
      environment.Unforged := by
  obtain ⟨isChunked, isUrlencoded, body, headers, taken, rfl⟩ := proceeds_of_forwarded forwarded
  have reframes := reframes_forwardedBody receives taken
  have encoding : ∀ own ∈ environment.own, lower own.1 ≠ lower "Transfer-Encoding" :=
    @forall_mem_own environment (lower · ≠ lower "Transfer-Encoding") (by decide)
  have length : ∀ own ∈ environment.own, lower own.1 ≠ lower "Content-Length" :=
    @forall_mem_own environment (lower · ≠ lower "Content-Length") (by decide)
  have arrive := @sent_own_iff environment headers
  refine arrive.trans (forall₂_congr fun own listed => forall_congr' fun header => ?_)
  constructor
  · intro unforged member same
    exact unforged ((reframes.mem_raw_iff (same ▸ encoding own listed)
      (same ▸ length own listed)).mpr member) same
  · intro unforged member same
    exact unforged ((reframes.mem_raw_iff (same ▸ encoding own listed)
      (same ▸ length own listed)).mp member) same

/-- The address that the client made up is sent in some order. -/
theorem own_headers_iff_spilled :
    ∃ parameters, forwardHttpsRequest (spilledRequest "PUT") false = .ok (.proceeds parameters) ∧
      ¬∀ traversal : RawHeaders, traversal.Perm parameters.headers →
        ∀ own ∈ (spilledRequest "PUT").own, traversal.sent own.1 = own.2.map .text := by
  have forwarded : forwardHttpsRequest (spilledRequest "PUT") false = .ok (.proceeds _) := rfl
  refine ⟨_, forwarded, fun arrive => ?_⟩
  have unforged :=
    (own_headers_iff _ _ _ _ (receives_spilledRequest "PUT") forwarded).mp arrive
  have forged := unforged ("X-Real-IP", some "10.0.0.1") List.mem_cons_self
    ("x-real-ip", .text "6.6.6.6") (mem_raw.mpr rfl) (by decide) (by decide)
  simp at forged

end Forging

end ForwardedRequest

end Apicast
