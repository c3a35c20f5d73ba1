import Apicast.PolicyPhases
import Mathlib.Data.List.Count

/-!
# The tries of the balancer

In each try the executor counts and calls the balancer phase of the chain, in which any number of
policies call the balancer. The first one to do so sets the peer and marks the try, and asks for
one more try as long as fewer retries were made than configured. The others see the mark through
the contexts of nested chains.
-/

namespace Apicast.Balancer

open Foundation Phases

structure Server where
  address : Option String
  port : Option Nat

structure Uri where
  scheme : String
  port : Option Nat

structure Timeouts where
  connectTimeout : Option Nat
  sendTimeout : Option Nat
  readTimeout : Option Nat

structure Upstream where
  uri : Uri
  /-- The resolved servers. -/
  servers : Option (List Server)
  upstreamName : String

/-- What is in the context of a request. -/
inductive Value
  | number (value : Nat)
  | boolean (value : Bool)
  | upstream (upstream : Upstream)
  | timeouts (timeouts : Timeouts)

/-- What the balancer asks of nginx. -/
inductive Event
  | setMoreTries
  | setCurrentPeer (address : String) (port : Nat)
  | setTimeouts (timeouts : Timeouts)
  | exit (status : Nat)

abbrev RequestContext := Context String Value

abbrev RequestResult := Result String Value Event

abbrev RequestPolicy := Phases.Policy String Value Event

abbrev RequestChain := Chain String Value Event

structure Peer where
  address : String
  port : Option Nat

/-- What the balancer uses of nginx and of the URL library, and where its cursor is. -/
structure Environment where
  proxyHost : String
  defaultPort : String → Option Nat
  setCurrentPeer : String → Nat → Bool
  /-- The cursor of the query, or a random number, counted from zero, at a call of the balancer. -/
  cursor : RequestContext → Nat

/-- A server without an address is skipped. -/
def newPeer (server : Server) : Option Peer :=
  server.address.map fun address => { address, port := server.port }

def convertServers (servers : List Server) : List Peer := servers.filterMap newPeer

/-- `round_robin.call` -/
def roundRobin (cursor : Nat) (peers : List Peer) : Option Peer :=
  peers[min cursor (peers.length - 1)]?

/-- A value counts as true unless it is `false`. -/
def truthy : Option Value → Bool
  | none => false
  | some (.boolean value) => value
  | some _ => true

def getUpstream (environment : Environment) (context : RequestContext) : Option Upstream :=
  match context.get environment.proxyHost with
  | some (.upstream upstream) =>
      if truthy (context.get "peer_set_in_current_balancer_try") then none
      else if environment.proxyHost ≠ upstream.upstreamName then none
      else some upstream
  | _ => none

def getPeer (environment : Environment) (context : RequestContext) (upstream : Upstream) :
    Option Peer :=
  upstream.servers.bind fun servers =>
    roundRobin (environment.cursor context) (convertServers servers)

def setMoreTriesIfNeeded (context : RequestContext) : List Event :=
  match context.get "upstream_retries", context.get "balancer_retries" with
  | some (.number upstreamRetries), some (.number balancerRetries) =>
      if balancerRetries < upstreamRetries then [.setMoreTries] else []
  | _, _ => []

def setTimeouts (context : RequestContext) : List Event :=
  match context.get "upstream_connection_opts" with
  | some (.timeouts timeouts) => [.setTimeouts timeouts]
  | _ => []

def exitServiceUnavailable : List Event := [.exit 503]

/-- `_M.call` -/
def call (environment : Environment) (context : RequestContext) : RequestContext × List Event :=
  match getUpstream environment context with
  | none => (context, [])
  | some upstream =>
      match getPeer environment context upstream with
      | none => (context, exitServiceUnavailable)
      | some peer =>
          let moreTries := setMoreTriesIfNeeded context
          match peer.port <|> upstream.uri.port <|> environment.defaultPort upstream.uri.scheme with
          | none => (context, moreTries ++ exitServiceUnavailable)
          | some port =>
              if environment.setCurrentPeer peer.address port then
                (context.set "peer_set_in_current_balancer_try" (some (.boolean true)),
                  moreTries ++ .setCurrentPeer peer.address port :: setTimeouts context)
              else (context, moreTries ++ exitServiceUnavailable)

/-- What the executor writes to the context before a try. -/
def startTry (context : RequestContext) : RequestContext :=
  let balancerRetries :=
    match context.get "balancer_retries" with
    | some (.number retries) => retries + 1
    | _ => 0
  let context := context.set "balancer_retries" (some (.number balancerRetries))
  context.set "peer_set_in_current_balancer_try" (some (.boolean false))

section Tries

variable (policyErrorCallback : RequestContext → Option ErrorCallback)
  (chain : RequestChain)

/-- The balancer phase of the executor. -/
def executorBalancer (context : RequestContext) : RequestContext × List Event :=
  let context := startTry context
  let result := chain.call policyErrorCallback .balancer context
  ({ context with current := result.current }, result.events)

/-- The number of tries that a try grants. -/
def moreTries (events : List Event) : Nat :=
  if events.any (fun event => event matches .setMoreTries) then 1 else 0

/-- The tries of a request whose every connection attempt fails, when some tries are left. There is
no result when there are more of them than `fuel`. -/
def failingTries : (fuel left : Nat) → RequestContext → Option (List (List Event))
  | _, 0, _ => some []
  | 0, _ + 1, _ => none
  | fuel + 1, left + 1, context =>
      let (context, events) := executorBalancer policyErrorCallback chain context
      (failingTries fuel (left + moreTries events) context).map (events :: ·)

/-- The context after some tries. -/
def afterTries : Nat → RequestContext → RequestContext
  | 0, context => context
  | number + 1, context =>
      afterTries number (executorBalancer policyErrorCallback chain context).1

end Tries

/-! ## What a try does -/

/-- What the balancer looks up in the context, besides the mark of the try. -/
def settings : List String := ["upstream", "upstream_retries", "balancer_retries"]

/-- The entries are the same before and after. -/
def Kept (keys : List String) (before after : String → Option Value) : Prop :=
  ∀ key ∈ keys, after key = before key

theorem Kept.trans {keys : List String} {first middle last : String → Option Value}
    (earlier : Kept keys first middle) (later : Kept keys middle last) : Kept keys first last :=
  fun key member => (later key member).trans (earlier key member)

theorem Kept.settings {before after : String → Option Value}
    (kept : Kept ("peer_set_in_current_balancer_try" :: settings) before after) :
    Kept settings before after :=
  fun key member => kept key (List.mem_cons_of_mem _ member)

/-- The context of a try, after `number` retries out of `retries`. It is marked once the peer is
set. -/
structure Ready (upstream : Upstream) (retries number : Nat) (marked : Bool)
    (context : RequestContext) : Prop where
  upstream : context.get "upstream" = some (.upstream upstream)
  upstreamRetries : context.get "upstream_retries" = some (.number retries)
  balancerRetries : context.get "balancer_retries" = some (.number number)
  mark : context.current "peer_set_in_current_balancer_try" = some (.boolean marked)

section Ready

variable {upstream : Upstream} {retries number : Nat} {marked other : Bool}
  {context : RequestContext}

/-- A policy that keeps the settings leaves the context ready, marked as it left the mark. -/
theorem Ready.kept {after : String → Option Value}
    (ready : Ready upstream retries number marked context)
    (kept : Kept settings context.current after)
    (mark : after "peer_set_in_current_balancer_try" = some (.boolean other)) :
    Ready upstream retries number other { context with current := after } := by
  have same (key : String) (member : key ∈ settings) :
      LinkedList.get { context with current := after } key = context.get key :=
    congrArg (Option.or · _) (kept key member)
  exact
    { upstream := (same _ (by decide)).trans ready.upstream
      upstreamRetries := (same _ (by decide)).trans ready.upstreamRetries
      balancerRetries := (same _ (by decide)).trans ready.balancerRetries
      mark }

/-- The context of a nested chain finds what the balancer looks up. -/
theorem Ready.merge (ready : Ready upstream retries number marked context)
    (table : String → Option Value) :
    Ready upstream retries number marked (context.merge table) where
  upstream := LinkedList.get_merge_of_get ready.upstream
  upstreamRetries := LinkedList.get_merge_of_get ready.upstreamRetries
  balancerRetries := LinkedList.get_merge_of_get ready.balancerRetries
  mark := ready.mark

theorem Ready.truthy_mark (ready : Ready upstream retries number marked context) :
    truthy (context.get "peer_set_in_current_balancer_try") = marked := by
  unfold LinkedList.get
  rw [ready.mark]
  rfl

end Ready

/-- Whether a try is counted by it. -/
def Event.counted : Event → Bool
  | .setMoreTries | .setCurrentPeer _ _ => true
  | .setTimeouts _ | .exit _ => false

/-- The requests for more tries and the peers. -/
def counted (events : List Event) : List Event := events.filter Event.counted

theorem counted_append (events others : List Event) :
    counted (events ++ others) = counted events ++ counted others :=
  List.filter_append ..

/-- The balancer call was not run, or it did nothing. -/
structure Untouched (before : String → Option Value) (result : RequestResult) : Prop where
  kept : Kept ("peer_set_in_current_balancer_try" :: settings) before result.current
  counted : counted result.events = []
  returned : result.outcome = .returned

/-- The balancer call set the peer. -/
structure PeerSet (retries number : Nat) (before : String → Option Value)
    (result : RequestResult) : Prop where
  kept : Kept settings before result.current
  mark : result.current "peer_set_in_current_balancer_try" = some (.boolean true)
  counted : ∃ address port, counted result.events =
    (if number < retries then [.setMoreTries] else []) ++ [.setCurrentPeer address port]
  returned : result.outcome = .returned

section After

variable {retries number : Nat} {before : String → Option Value} {first rest : RequestResult}

/-- Two policies that do nothing do nothing together. -/
theorem Untouched.after (untouched : Untouched before first)
    (later : Untouched first.current rest) :
    Untouched before (rest.after first.events) where
  kept := untouched.kept.trans later.kept
  counted := by
    change Balancer.counted (first.events ++ rest.events) = []
    rw [counted_append, untouched.counted, later.counted, List.append_nil]
  returned := later.returned

/-- A policy that does nothing may come before the one that sets the peer. -/
theorem Untouched.peerSet (untouched : Untouched before first)
    (later : PeerSet retries number first.current rest) :
    PeerSet retries number before (rest.after first.events) where
  kept := untouched.kept.settings.trans later.kept
  mark := later.mark
  counted := by
    obtain ⟨address, port, found⟩ := later.counted
    refine ⟨address, port, ?_⟩
    change Balancer.counted (first.events ++ rest.events) = _
    rw [counted_append, untouched.counted, found, List.nil_append]
  returned := later.returned

/-- A policy that does nothing may come after it. -/
theorem PeerSet.untouched (peerSet : PeerSet retries number before first)
    (later : Untouched first.current rest) :
    PeerSet retries number before (rest.after first.events) where
  kept := peerSet.kept.trans later.kept.settings
  mark := (later.kept _ List.mem_cons_self).trans peerSet.mark
  counted := by
    obtain ⟨address, port, found⟩ := peerSet.counted
    refine ⟨address, port, ?_⟩
    change Balancer.counted (first.events ++ rest.events) = _
    rw [counted_append, found, later.counted, List.append_nil]
  returned := later.returned

end After

/-- The peer is set by the first balancer call of a try, and by no other. -/
structure Tried (retries number : Nat) (marked : Bool) (calls : Prop)
    (before : String → Option Value) (result : RequestResult) : Prop where
  sets : marked = false → calls → PeerSet retries number before result
  skips : marked = true ∨ ¬ calls → Untouched before result

section Call

variable {environment : Environment} {upstream : Upstream} {retries number : Nat}
  {context : RequestContext}

/-- The environment of a request to an upstream with a resolved server. -/
structure Serves (environment : Environment) (upstream : Upstream) : Prop where
  /-- The location of the upstream is the one of all upstreams. -/
  proxyHost : environment.proxyHost = "upstream"
  upstreamName : upstream.upstreamName = "upstream"
  resolved : ∃ servers, upstream.servers = some servers ∧
    ∃ server ∈ servers, server.address.isSome = true
  /-- The default port of the scheme is known. -/
  port : (upstream.uri.port <|> environment.defaultPort upstream.uri.scheme).isSome = true
  /-- The addresses of the resolver are accepted. -/
  accepted : ∀ servers, upstream.servers = some servers → ∀ server ∈ servers,
    ∀ address, server.address = some address →
      ∀ port, environment.setCurrentPeer address port = true

/-- Of some peers, one is selected wherever the cursor is. -/
theorem exists_roundRobin {peers : List Peer} (nonempty : peers ≠ []) (cursor : Nat) :
    ∃ peer ∈ peers, roundRobin cursor peers = some peer := by
  have inside : min cursor (peers.length - 1) < peers.length := by
    have := List.length_pos_iff.mpr nonempty
    omega
  exact ⟨_, List.getElem_mem inside, List.getElem?_eq_getElem inside⟩

/-- A peer is found, and nginx accepts its address. -/
theorem Serves.exists_getPeer (serves : Serves environment upstream) (context : RequestContext) :
    ∃ peer, getPeer environment context upstream = some peer ∧
      ∀ port, environment.setCurrentPeer peer.address port = true := by
  obtain ⟨servers, found, server, member, addressed⟩ := serves.resolved
  obtain ⟨address, known⟩ := Option.isSome_iff_exists.mp addressed
  have converted : (⟨address, server.port⟩ : Peer) ∈ convertServers servers :=
    List.mem_filterMap.mpr ⟨server, member, congrArg (Option.map _) known⟩
  obtain ⟨peer, among, selected⟩ :=
    exists_roundRobin (List.ne_nil_of_mem converted) (environment.cursor context)
  refine ⟨peer, (congrArg (Option.bind · _) found).trans selected, fun port => ?_⟩
  obtain ⟨origin, listed, made⟩ := List.mem_filterMap.mp among
  obtain ⟨own, address_own, rfl⟩ := Option.map_eq_some_iff.mp made
  exact serves.accepted servers found origin listed own address_own port

/-- The upstream is found in a try that is not marked yet, and in no other. -/
theorem Ready.getUpstream (serves : Serves environment upstream) {marked : Bool}
    (ready : Ready upstream retries number marked context) :
    getUpstream environment context = if marked then none else some upstream := by
  unfold Balancer.getUpstream
  rw [serves.proxyHost, ready.upstream]
  dsimp only
  rw [ready.truthy_mark, if_neg (not_not.mpr serves.upstreamName.symm)]

/-- Another try is asked for as long as fewer retries were made than configured. -/
theorem Ready.setMoreTriesIfNeeded {marked : Bool}
    (ready : Ready upstream retries number marked context) :
    setMoreTriesIfNeeded context = if number < retries then [.setMoreTries] else [] := by
  unfold Balancer.setMoreTriesIfNeeded
  rw [ready.upstreamRetries, ready.balancerRetries]

/-- Another balancer call in a try does nothing. -/
theorem Ready.call_marked (serves : Serves environment upstream)
    (ready : Ready upstream retries number true context) :
    call environment context = (context, []) := by
  unfold call
  rw [ready.getUpstream serves]
  rfl

/-- The first balancer call in a try sets the peer. -/
theorem Ready.call_unmarked (serves : Serves environment upstream)
    (ready : Ready upstream retries number false context) :
    ∃ address port, call environment context =
      (context.set "peer_set_in_current_balancer_try" (some (.boolean true)),
        (if number < retries then [.setMoreTries] else []) ++
          .setCurrentPeer address port :: setTimeouts context) := by
  obtain ⟨peer, selected, accepted⟩ := serves.exists_getPeer context
  obtain ⟨port, known⟩ : ∃ port, (peer.port <|> upstream.uri.port <|>
      environment.defaultPort upstream.uri.scheme) = some port := by
    obtain ⟨fallback, found⟩ := Option.isSome_iff_exists.mp serves.port
    cases peer.port with
    | none => exact ⟨fallback, found⟩
    | some own => exact ⟨own, rfl⟩
  refine ⟨peer.address, port, ?_⟩
  unfold call
  rw [ready.getUpstream serves, if_neg Bool.false_ne_true]
  dsimp only
  rw [selected]
  dsimp only
  rw [known]
  dsimp only
  rw [if_pos (accepted port), ready.setMoreTriesIfNeeded]

theorem counted_setTimeouts (context : RequestContext) : counted (setTimeouts context) = [] := by
  unfold setTimeouts
  split <;> rfl

theorem counted_call (address : String) (port : Nat) (context : RequestContext) :
    counted ((if number < retries then [.setMoreTries] else []) ++
        .setCurrentPeer address port :: setTimeouts context) =
      (if number < retries then [.setMoreTries] else []) ++ [.setCurrentPeer address port] := by
  rw [counted_append]
  change _ ++ .setCurrentPeer address port :: counted (setTimeouts context) = _
  rw [counted_setTimeouts]
  split <;> rfl

/-- The balancer phase of a policy that runs the balancer call. -/
def balancerPhase (environment : Environment) (context : RequestContext) :
    RequestResult :=
  let (context, events) := call environment context
  { current := context.current, events, outcome := .returned }

/-- The balancer phase of the standalone policy: the one of the chain that it keeps in the context,
and then the balancer call. -/
def standaloneBalancer (environment : Environment)
    (policyErrorCallback : RequestContext → Option ErrorCallback) (chain : Option RequestChain)
    (context : RequestContext) : RequestResult :=
  let forwarded := (chain.map (·.call policyErrorCallback .balancer context)).getD
    { current := context.current, events := [], outcome := .returned }
  match forwarded.outcome with
  | .returned =>
      (balancerPhase environment { context with current := forwarded.current }).after
        forwarded.events
  | _ => forwarded

/-- **One call of the balancer.** It sets the peer in a try that is not marked, and does nothing
in one that is. -/
theorem Ready.tried_balancerPhase (serves : Serves environment upstream) {marked : Bool}
    (ready : Ready upstream retries number marked context) :
    Tried retries number marked True context.current (balancerPhase environment context) where
  sets := by
    intro unmarked _
    subst unmarked
    obtain ⟨address, port, called⟩ := ready.call_unmarked serves
    have others : "peer_set_in_current_balancer_try" ∉ settings := by decide
    unfold balancerPhase
    rw [called]
    dsimp only
    exact
      { kept := fun key member => Function.update_of_ne (ne_of_mem_of_not_mem member others) _ _
        mark := by
          dsimp only
          exact LinkedList.current_set_self
        counted := ⟨address, port, counted_call _ _ context⟩
        returned := rfl }
  skips := by
    intro skipped
    obtain rfl : marked = true := skipped.resolve_right (not_not.mpr trivial)
    unfold balancerPhase
    rw [ready.call_marked serves]
    exact { kept := fun _ _ => rfl, counted := rfl, returned := rfl }

/-- A try in which a policy is called sets the peer there, or leaves it as it was. -/
theorem Tried.cases {marked : Bool} {calls : Prop} {before : String → Option Value}
    {result : RequestResult} (tried : Tried retries number marked calls before result) :
    (marked = false ∧ calls) ∧ PeerSet retries number before result ∨
      (marked = true ∨ ¬ calls) ∧ Untouched before result := by
  by_cases sets : marked = false ∧ calls
  · exact .inl ⟨sets, tried.sets sets.1 sets.2⟩
  · rw [not_and_or, Bool.not_eq_false] at sets
    exact .inr ⟨sets, tried.skips sets⟩

/-- A balancer call after other policies sets the peer unless one of them did. -/
theorem Ready.tried_after (serves : Serves environment upstream) {marked : Bool}
    (ready : Ready upstream retries number marked context) {calls : Prop}
    {result : RequestResult} (tried : Tried retries number marked calls context.current result) :
    Tried retries number marked True context.current
      ((balancerPhase environment { context with current := result.current }).after
        result.events) := by
  obtain ⟨⟨unmarked, -⟩, peerSet⟩ | ⟨-, untouched⟩ := tried.cases
  · have rest := (ready.kept peerSet.kept peerSet.mark).tried_balancerPhase serves
    exact
      { sets := fun _ _ => peerSet.untouched (rest.skips (.inl rfl))
        skips := fun skipped => absurd (skipped.resolve_right (not_not.mpr trivial))
          (ne_true_of_eq_false unmarked) }
  · have mark := (untouched.kept _ List.mem_cons_self).trans ready.mark
    have rest := (ready.kept untouched.kept.settings mark).tried_balancerPhase serves
    exact
      { sets := fun unmarked _ => untouched.peerSet (rest.sets unmarked trivial)
        skips := fun skipped => untouched.after (rest.skips skipped) }

end Call

section Policies

variable (environment : Environment) (policyErrorCallback : RequestContext → Option ErrorCallback)

/-- One of the policies runs the balancer call, in the context that those before it left. -/
def SomeCalls (calls : RequestPolicy → RequestContext → Prop) :
    List RequestPolicy → RequestContext → Prop
  | [], _ => False
  | policy :: policies, context =>
      calls policy context ∨
        SomeCalls calls policies
          { context with current :=
              (callAll policyErrorCallback .balancer [policy] context).current }

/-- No policy of the chain failed to load, or its error does not end the request. -/
def Loaded (chain : RequestChain) : Prop :=
  ∀ context, (chain.start policyErrorCallback context).outcome = .returned

/-- What the balancer phase of a policy does, and in which contexts it runs the balancer call. -/
inductive Built : RequestPolicy → (RequestContext → Prop) → Prop
  /-- A policy that does not run the balancer call. -/
  | other {policy : RequestPolicy} :
      (∀ context,
        Untouched context.current (callAll policyErrorCallback .balancer [policy] context)) →
      Built policy fun _ => False
  /-- A policy that runs the balancer call, possibly on a condition of its own. -/
  | balancing {policy : RequestPolicy} {runs : RequestContext → Bool} :
      (∀ context, policy.call .balancer context =
        if runs context then balancerPhase environment context
        else { current := context.current, events := [], outcome := .returned }) →
      Built policy fun context => runs context = true
  | conditional {condition : Phase → RequestContext → Bool} {chain : RequestChain}
      {calls : RequestPolicy → RequestContext → Prop} :
      Loaded policyErrorCallback chain → (∀ policy ∈ chain.policies, Built policy (calls policy)) →
      Built (conditional policyErrorCallback condition chain) fun context =>
        condition .balancer context = true ∧
          SomeCalls policyErrorCallback calls chain.policies context
  | localChain {buildChain : RequestContext → RequestContext}
      {findPolicyChain : RequestContext → RequestChain}
      {calls : RequestPolicy → RequestContext → Prop} :
      (∀ context, Loaded policyErrorCallback (findPolicyChain context)) →
      (∀ context, ∀ policy ∈ (findPolicyChain context).policies, Built policy (calls policy)) →
      Built (localChain policyErrorCallback buildChain findPolicyChain) fun context =>
        SomeCalls policyErrorCallback calls (findPolicyChain context).policies
          (context.merge (findPolicyChain context).exported)
  /-- A policy that calls the chain which it keeps in the context, and then the balancer. -/
  | standalone {policy : RequestPolicy} {keptChain : RequestContext → Option RequestChain}
      {calls : RequestPolicy → RequestContext → Prop} :
      (∀ context, policy.call .balancer context =
        standaloneBalancer environment policyErrorCallback (keptChain context) context) →
      (∀ context, ∀ chain ∈ keptChain context, Loaded policyErrorCallback chain) →
      (∀ context, ∀ chain ∈ keptChain context, ∀ policy ∈ chain.policies,
        Built policy (calls policy)) →
      Built policy fun _ => True

variable {environment policyErrorCallback} {upstream : Upstream} {retries number : Nat}

/-- No policy ends the try. -/
theorem Tried.returned {marked : Bool} {calls : Prop} {before : String → Option Value}
    {result : RequestResult} (tried : Tried retries number marked calls before result) :
    result.outcome = .returned := by
  obtain ⟨_, peerSet⟩ | ⟨_, untouched⟩ := tried.cases
  · exact peerSet.returned
  · exact untouched.returned

/-- Policies that call the balancer under the same conditions try alike. -/
theorem Tried.of_iff {marked : Bool} {calls others : Prop} {before : String → Option Value}
    {result : RequestResult} (tried : Tried retries number marked calls before result)
    (same : calls ↔ others) : Tried retries number marked others before result :=
  propext same ▸ tried

/-- A policy that returns what it was given, as it does not run the balancer call. -/
theorem tried_idle {marked : Bool} {calls : Prop} (never : ¬ calls)
    (current : String → Option Value) :
    Tried retries number marked calls current
      { current, events := [], outcome := .returned } where
  sets := fun _ called => absurd called never
  skips := fun _ => { kept := fun _ _ => rfl, counted := rfl, returned := rfl }

/-- What holds of each policy of a chain in every try holds of the chain. -/
theorem tried_callAll {calls : RequestPolicy → RequestContext → Prop}
    {policies : List RequestPolicy}
    (each : ∀ policy ∈ policies, ∀ context marked,
      Ready upstream retries number marked context →
        Tried retries number marked (calls policy context) context.current
          (callAll policyErrorCallback .balancer [policy] context))
    {context : RequestContext} {marked : Bool}
    (ready : Ready upstream retries number marked context) :
    Tried retries number marked (SomeCalls policyErrorCallback calls policies context)
      context.current (callAll policyErrorCallback .balancer policies context) := by
  induction policies generalizing context marked with
  | nil => exact tried_idle id context.current
  | cons policy policies ih =>
      have first := each policy List.mem_cons_self context marked ready
      have others := fun policy member => each policy (List.mem_cons_of_mem _ member)
      rw [callAll_cons policies first.returned]
      obtain ⟨⟨unmarked, called⟩, peerSet⟩ | ⟨skipped, untouched⟩ := first.cases
      · -- The mark keeps the others from another call.
        have rest := ih others (ready.kept peerSet.kept peerSet.mark)
        exact
          { sets := fun _ _ => peerSet.untouched (rest.skips (.inl rfl))
            skips := fun skipped =>
              absurd (.inl called) (skipped.resolve_left (ne_true_of_eq_false unmarked)) }
      · have mark := (untouched.kept _ List.mem_cons_self).trans ready.mark
        have rest := ih others (ready.kept untouched.kept.settings mark)
        exact
          { sets := fun unmarked called =>
              untouched.peerSet (rest.sets unmarked (called.resolve_left
                (skipped.resolve_left (ne_true_of_eq_false unmarked))))
            skips := fun skipped =>
              untouched.after (rest.skips (skipped.imp_right fun never called =>
                never (.inr called))) }

/-- A policy in a chain of its own tries like the policy. -/
theorem Tried.alone {marked : Bool} {calls : Prop} {before : String → Option Value}
    {policy : RequestPolicy} {context : RequestContext}
    (tried : Tried retries number marked calls before (policy.call .balancer context)) :
    Tried retries number marked calls before
      (callAll policyErrorCallback .balancer [policy] context) := by
  rw [callAll_singleton tried.returned]
  exact tried

/-- The standalone policy sets the peer itself, unless its chain does. -/
theorem tried_standaloneBalancer {calls : RequestPolicy → RequestContext → Prop}
    {kept : Option RequestChain} (serves : Serves environment upstream)
    (loaded : ∀ chain ∈ kept, Loaded policyErrorCallback chain)
    (each : ∀ chain ∈ kept, ∀ policy ∈ chain.policies, ∀ context marked,
      Ready upstream retries number marked context →
        Tried retries number marked (calls policy context) context.current
          (callAll policyErrorCallback .balancer [policy] context))
    {context : RequestContext} {marked : Bool}
    (ready : Ready upstream retries number marked context) :
    Tried retries number marked True context.current
      (standaloneBalancer environment policyErrorCallback kept context) := by
  unfold standaloneBalancer
  cases kept with
  | none => exact ready.tried_after serves (tried_idle id context.current)
  | some chain =>
      have tried := tried_callAll (each chain rfl) ready
      rw [Option.map_some, Option.getD_some, Chain.call_eq_callAll (loaded chain rfl context)]
      dsimp only
      rw [tried.returned]
      exact ready.tried_after serves tried

/-- What a policy does in a try, however chains are nested in it. -/
theorem Built.tried {policy : RequestPolicy} {calls : RequestContext → Prop}
    (built : Built environment policyErrorCallback policy calls)
    (serves : Serves environment upstream) {context : RequestContext} {marked : Bool}
    (ready : Ready upstream retries number marked context) :
    Tried retries number marked (calls context) context.current
      (callAll policyErrorCallback .balancer [policy] context) := by
  induction built generalizing context marked with
  | other untouched => exact { sets := fun _ => False.elim, skips := fun _ => untouched context }
  | @balancing policy runs phase =>
      apply Tried.alone
      rw [phase context]
      by_cases run : runs context = true
      · rw [if_pos run]
        exact (ready.tried_balancerPhase serves).of_iff (iff_of_true trivial run)
      · rw [if_neg run]
        exact tried_idle run context.current
  | @conditional condition chain calls loaded _ ih =>
      apply Tried.alone
      by_cases met : condition .balancer context = true
      · have called : (Phases.conditional policyErrorCallback condition chain).call .balancer
              context = callAll policyErrorCallback .balancer chain.policies context :=
          (if_pos met).trans (Chain.call_eq_callAll (loaded context))
        rw [called]
        exact (tried_callAll (fun policy member _ _ => ih policy member) ready).of_iff
          (and_iff_right met).symm
      · have skipped : (Phases.conditional policyErrorCallback condition chain).call .balancer
              context = { current := context.current, events := [], outcome := .returned } :=
          if_neg met
        rw [skipped]
        exact tried_idle (fun both => met both.1) context.current
  | @localChain buildChain findPolicyChain calls loaded _ ih =>
      apply Tried.alone
      have called : (Phases.localChain policyErrorCallback buildChain findPolicyChain).call
            .balancer context =
          callAll policyErrorCallback .balancer (findPolicyChain context).policies
            (context.merge (findPolicyChain context).exported) := by
        unfold Phases.localChain
        dsimp only
        rw [if_neg (by decide), Chain.call_eq_callAll (loaded context _)]
      rw [called]
      exact tried_callAll (fun policy member _ _ => ih context policy member)
        (ready.merge (findPolicyChain context).exported)
  | @standalone policy keptChain calls phase loaded _ ih =>
      apply Tried.alone
      rw [phase context]
      exact tried_standaloneBalancer serves (loaded context)
        (fun chain kept policy member _ _ => ih context chain kept policy member) ready

/-- The context of a request to the upstream that was given `number` tries. -/
structure Requested (upstream : Upstream) (retries number : Nat) (context : RequestContext) :
    Prop where
  upstream : context.get "upstream" = some (.upstream upstream)
  upstreamRetries : context.get "upstream_retries" = some (.number retries)
  balancerRetries : context.get "balancer_retries" =
    match number with
    | 0 => none
    | retried + 1 => some (.number retried)

/-- After a try the request has one more of them behind it. -/
theorem Ready.requested {marked : Bool} {context : RequestContext}
    (ready : Ready upstream retries number marked context) :
    Requested upstream retries (number + 1) context where
  upstream := ready.upstream
  upstreamRetries := ready.upstreamRetries
  balancerRetries := ready.balancerRetries

/-- The executor counts the try and takes the mark of the last one away. -/
theorem Requested.ready_startTry {context : RequestContext}
    (requested : Requested upstream retries number context) :
    Ready upstream retries number false (startTry context) := by
  have others (key : String) (other : key ≠ "peer_set_in_current_balancer_try")
      (another : key ≠ "balancer_retries") : (startTry context).get key = context.get key :=
    (LinkedList.get_set_of_ne other).trans (LinkedList.get_set_of_ne another)
  have counter : (startTry context).get "balancer_retries" = some (.number number) := by
    unfold startTry
    dsimp only
    rw [LinkedList.get_set_of_ne (by decide), requested.balancerRetries]
    cases number <;> exact LinkedList.get_set_self
  exact
    { upstream := (others _ (by decide) (by decide)).trans requested.upstream
      upstreamRetries := (others _ (by decide) (by decide)).trans requested.upstreamRetries
      balancerRetries := counter
      mark := LinkedList.current_set_self }

section Failing

variable {chain : RequestChain} {calls : RequestPolicy → RequestContext → Prop}

/-- A try with a balancer call in it sets the peer once, and grants a retry if there is one. -/
theorem executorBalancer_spec (serves : Serves environment upstream)
    (loaded : Loaded policyErrorCallback chain)
    (built : ∀ policy ∈ chain.policies,
      Built environment policyErrorCallback policy (calls policy))
    {context : RequestContext} (requested : Requested upstream retries number context)
    (called : SomeCalls policyErrorCallback calls chain.policies (startTry context)) :
    Requested upstream retries (number + 1)
        (executorBalancer policyErrorCallback chain context).1 ∧
      ∃ address port, counted (executorBalancer policyErrorCallback chain context).2 =
        (if number < retries then [.setMoreTries] else []) ++ [.setCurrentPeer address port] := by
  have ready := requested.ready_startTry
  have peerSet := (tried_callAll
    (fun policy member context marked => (built policy member).tried serves) ready).sets rfl called
  rw [← Chain.call_eq_callAll (loaded _)] at peerSet
  exact ⟨(ready.kept peerSet.kept peerSet.mark).requested, peerSet.counted⟩

/-- The number of peers that a try sets. -/
def peersSet (events : List Event) : Nat :=
  events.countP fun event => event matches .setCurrentPeer _ _

/-- The events that are not counted set no peer. -/
theorem peersSet_counted (events : List Event) : peersSet (counted events) = peersSet events := by
  unfold peersSet counted
  rw [List.countP_filter]
  congr 1
  funext event
  cases event <;> rfl

theorem moreTries_counted (events : List Event) :
    moreTries (counted events) = moreTries events := by
  unfold moreTries counted
  rw [List.any_filter]
  congr 3
  funext event
  cases event <;> rfl

/-- Some tries later, the request has as many more of them behind it. -/
theorem requested_afterTries (serves : Serves environment upstream)
    (loaded : Loaded policyErrorCallback chain)
    (built : ∀ policy ∈ chain.policies,
      Built environment policyErrorCallback policy (calls policy))
    {context : RequestContext} (requested : Requested upstream retries number context)
    {tried : Nat}
    (called : ∀ before < tried, SomeCalls policyErrorCallback calls chain.policies
      (startTry (afterTries policyErrorCallback chain before context))) :
    Requested upstream retries (number + tried)
      (afterTries policyErrorCallback chain tried context) := by
  induction tried generalizing number context with
  | zero => exact requested
  | succ tried ih =>
      have next := (executorBalancer_spec serves loaded built requested
        (called 0 (Nat.zero_lt_succ tried))).1
      have rest := ih next fun before inside => called (before + 1) (Nat.succ_lt_succ inside)
      rw [Nat.add_assoc, Nat.add_comm 1 tried] at rest
      exact rest

/-- The tries of a failing request, from any of them on. -/
theorem length_failingTries (serves : Serves environment upstream)
    (loaded : Loaded policyErrorCallback chain)
    (built : ∀ policy ∈ chain.policies,
      Built environment policyErrorCallback policy (calls policy))
    {context : RequestContext} {remaining : Nat} (all : number + remaining = retries)
    (requested : Requested upstream retries number context)
    (called : ∀ tried ≤ remaining, SomeCalls policyErrorCallback calls chain.policies
      (startTry (afterTries policyErrorCallback chain tried context))) :
    ∃ tries, failingTries policyErrorCallback chain (remaining + 1) 1 context = some tries ∧
      tries.length = 1 + remaining := by
  induction remaining generalizing number context with
  | zero =>
      obtain ⟨_, address, port, found⟩ :=
        executorBalancer_spec serves loaded built requested (called 0 (Nat.le_refl 0))
      -- No retry is left.
      rw [if_neg (by omega)] at found
      refine ⟨[(executorBalancer policyErrorCallback chain context).2], ?_, rfl⟩
      unfold failingTries
      dsimp only
      rw [← moreTries_counted, found]
      rfl
  | succ remaining ih =>
      obtain ⟨next, address, port, found⟩ :=
        executorBalancer_spec serves loaded built requested (called 0 (Nat.zero_le _))
      rw [if_pos (by omega)] at found
      obtain ⟨tries, rest, length⟩ := ih (by omega) next fun tried inside =>
        called (tried + 1) (Nat.succ_le_succ inside)
      refine ⟨(executorBalancer policyErrorCallback chain context).2 :: tries, ?_, ?_⟩
      · unfold failingTries
        dsimp only
        rw [← moreTries_counted, found]
        exact congrArg (Option.map _) rest
      · rw [List.length_cons, length, Nat.add_assoc]

/-- Each try of a request sets the peer exactly once, and a request whose every connection attempt
fails is tried once more than the configured number of retries. -/
theorem peersSet_and_length_failingTries (serves : Serves environment upstream)
    (loaded : Loaded policyErrorCallback chain)
    (built : ∀ policy ∈ chain.policies,
      Built environment policyErrorCallback policy (calls policy))
    {context : RequestContext} (requested : Requested upstream retries 0 context)
    (called : ∀ tried ≤ retries, SomeCalls policyErrorCallback calls chain.policies
      (startTry (afterTries policyErrorCallback chain tried context))) :
    (∀ tried ≤ retries, peersSet (executorBalancer policyErrorCallback chain
      (afterTries policyErrorCallback chain tried context)).2 = 1) ∧
    ∃ tries, failingTries policyErrorCallback chain (retries + 1) 1 context = some tries ∧
      tries.length = 1 + retries := by
  refine ⟨fun tried inside => ?_,
    length_failingTries serves loaded built (Nat.zero_add retries) requested called⟩
  have before := requested_afterTries serves loaded built requested fun earlier passed =>
    called earlier (Nat.le_trans (Nat.le_of_lt passed) inside)
  obtain ⟨_, address, port, found⟩ :=
    executorBalancer_spec serves loaded built before (called tried inside)
  rw [← peersSet_counted, found]
  split <;> rfl

end Failing

end Policies

/-- The balancer phase of the gateway policy. -/
def gateway (environment : Environment) : RequestPolicy where
  name := "APIcast"
  call := fun _ context => balancerPhase environment context
  exported := LinkedList.emptyTable

/-- A chain of calls to the balancer. -/
def twice (policy : RequestPolicy) : RequestChain where
  policies := [policy, policy]
  initFailedPolicy := none

theorem loaded_twice (policy : RequestPolicy) : Loaded (fun _ => none) (twice policy) :=
  fun _ => rfl

theorem built_twice {environment : Environment} {policy : RequestPolicy}
    {calls : RequestContext → Prop} (built : Built environment (fun _ => none) policy calls) :
    ∀ member ∈ (twice policy).policies, Built environment (fun _ => none) member calls := by
  intro member among
  obtain rfl : member = policy := (List.mem_pair.mp among).elim id id
  exact built

/-- The standalone policy, with two calls of the balancer in its chain. -/
def standalone (environment : Environment) : RequestPolicy where
  name := "standalone"
  call := fun _ context =>
    standaloneBalancer environment (fun _ => none) (some (twice (gateway environment))) context
  exported := LinkedList.emptyTable

/-- Local chains in a conditional policy, in which the balancer call is run twelve times. -/
def nested (environment : Environment) : RequestPolicy :=
  conditional (fun _ => none) (fun _ _ => true)
    (twice (localChain (fun _ => none) id fun _ => twice (standalone environment)))

def nginx : Environment where
  proxyHost := "upstream"
  defaultPort := fun scheme => if scheme = "https" then some 443 else some 80
  setCurrentPeer := fun _ _ => true
  cursor := fun _ => 0

def resolvedUpstream : Upstream where
  uri := { scheme := "https", port := none }
  servers := some [{ address := some "10.0.0.1", port := none }]
  upstreamName := "upstream"

/-- A request with two retries. -/
def requestContext : RequestContext where
  current := fun key =>
    if key = "upstream" then some (.upstream resolvedUpstream)
    else if key = "upstream_retries" then some (.number 2)
    else none
  next := LinkedList.emptyTable

/-- There are three tries, and each of them sets the peer once. -/
theorem peersSet_and_length_failingTries_nested :
    (∀ tried ≤ 2, peersSet (executorBalancer (fun _ => none) (twice (nested nginx))
      (afterTries (fun _ => none) (twice (nested nginx)) tried requestContext)).2 = 1) ∧
    ∃ tries, failingTries (fun _ => none) (twice (nested nginx)) (2 + 1) 1 requestContext =
      some tries ∧ tries.length = 1 + 2 := by
  have serves : Serves nginx resolvedUpstream :=
    { proxyHost := rfl
      upstreamName := rfl
      resolved := ⟨_, rfl, _, List.mem_singleton_self _, rfl⟩
      port := rfl
      accepted := fun _ _ _ _ _ _ _ => rfl }
  have call : Built nginx (fun _ => none) (gateway nginx) fun _ => true = true :=
    .balancing fun _ => rfl
  have forwarding : Built nginx (fun _ => none) (standalone nginx) fun _ => True :=
    @Built.standalone nginx (fun _ => none) (standalone nginx)
      (fun _ => some (twice (gateway nginx))) (fun _ _ => true = true) (fun _ => rfl)
      (fun _ _ kept => Option.some.inj kept ▸ loaded_twice (gateway nginx))
      fun _ _ kept => Option.some.inj kept ▸ built_twice call
  have inner : Built nginx (fun _ => none)
      (localChain (fun _ => none) id fun _ => twice (standalone nginx)) _ :=
    .localChain (fun _ => loaded_twice (standalone nginx)) fun _ => built_twice forwarding
  exact peersSet_and_length_failingTries serves (loaded_twice (nested nginx))
    (built_twice (.conditional (loaded_twice _) (built_twice inner)))
    { upstream := rfl, upstreamRetries := rfl, balancerRetries := rfl }
    fun _ _ => .inl ⟨rfl, .inl (.inl trivial)⟩

end Apicast.Balancer
