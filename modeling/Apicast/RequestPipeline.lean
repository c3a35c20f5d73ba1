import Apicast.Configuration.Reload
import Apicast.PolicyPhases

/-!
# Requests and their policy chains

The chain of the gateway finds the host, the service and the policy chain of a request in the
rewrite phase and keeps them in the context of the request; all other phases go by the context.
Meanwhile the configuration is replaced, other requests are served, and the TLS handshakes, which
know the host that the client named there, go through the same policies. A request on a
connection whose handshake left a context would go on with that one.
-/

namespace Apicast.RequestPipeline

open Foundation

/-- What the chain of the gateway keeps in the context, and what other policies keep there. -/
structure Context (Service Chain Data : Type*) where
  host : Option String
  service : Option Service
  policyChain : Option Chain
  data : Data

/-- What the gateway is set up with. The loader of the configuration goes its own way; a service
is found in what has been loaded. -/
structure Gateway (Loader LoaderAction Line Service Chain Data : Type*) where
  loader : Machine Loader LoaderAction
  /-- `find_service_func`, for the method and path of a request. -/
  findService : Loader → Line → String → Option Service
  hostBasedFinder : Loader → String → Option Service
  /-- The finder is the one for hosts, which needs no method and path. -/
  hostBased : Bool
  /-- `service.policy_chain` -/
  policyChainOf : Service → Option Chain
  defaultChain : Chain
  /-- What `build_context` starts with. -/
  buildContext : Data
  /-- What the policies of a chain leave in the context, and that they exit the request. -/
  call : Chain → Phase → Context Service Chain Data → Data × Bool

variable {Loader LoaderAction Line Service Chain Data : Type*}

namespace Gateway

variable (gateway : Gateway Loader LoaderAction Line Service Chain Data)

/-- The context of `build_context`. -/
def freshContext : Context Service Chain Data := ⟨none, none, none, gateway.buildContext⟩

/-- `find_policy_chain` -/
def findPolicyChain (context : Context Service Chain Data) : Chain :=
  (context.policyChain.or (context.service.bind gateway.policyChainOf)).getD gateway.defaultChain

/-- The chain that serves what was found for a request. -/
def chainFor (service : Option Service) : Chain :=
  (service.bind gateway.policyChainOf).getD gateway.defaultChain

/-- The rewrite phase of `load_configuration.lua`. -/
def loadConfiguration (context : Context Service Chain Data) (host : String) :
    Context Service Chain Data :=
  { context with host := some (context.host.getD host) }

/-- The rewrite phase of `find_service.lua`. -/
def findServiceOf (loaded : Loader) (line : Line) (context : Context Service Chain Data) :
    Context Service Chain Data :=
  { context with
    service := context.service.or (context.host.bind (gateway.findService loaded line)) }

/-- `build_chain` -/
def buildChain (context : Context Service Chain Data) : Context Service Chain Data :=
  { context with policyChain := some (gateway.findPolicyChain context) }

/-- The TLS phases of `load_configuration.lua` and `find_service.lua`. -/
def sslContext (loaded : Loader) (serverName : Option String)
    (context : Context Service Chain Data) : Context Service Chain Data :=
  let named := { context with host := context.host.or serverName }
  if gateway.hostBased then
    { named with
      service := named.service.or (named.host.bind (gateway.hostBasedFinder loaded)) }
  else named

/-- `clear_table` of what a TLS handshake has kept. -/
def clearTable (_ : Option (Context Service Chain Data)) :
    Option (Context Service Chain Data) := none

end Gateway

/-- A phase of a policy chain. -/
structure Call (Chain : Type*) where
  phase : Phase
  chain : Chain

/-- A request: its context, once it has one, whether its service is being looked for, and the
chains that were called for it. -/
structure Request (Connection Line Service Chain Data : Type*) where
  connection : Connection
  host : String
  line : Line
  context : Option (Context Service Chain Data)
  finding : Bool
  calls : List (Call Chain)

structure State (Loader Connection Id Line Service Chain Data : Type*) where
  loader : Loader
  /-- The open connections, with the context that the handshake left. -/
  connections : Connection → Option (Option (Context Service Chain Data))
  requests : Id → Option (Request Connection Line Service Chain Data)

namespace State

variable {Connection Id : Type*} [DecidableEq Connection] [DecidableEq Id]
  (state : State Loader Connection Id Line Service Chain Data)

/-- The context that the handshake of a connection left. -/
def leftContext (connection : Connection) : Option (Context Service Chain Data) :=
  (state.connections connection).join

/-- `shared_build_context`: a request without a context finds the one of its connection. -/
def contextOf (request : Request Connection Line Service Chain Data)
    (fresh : Context Service Chain Data) : Context Service Chain Data :=
  (request.context.or (state.leftContext request.connection)).getD fresh

/-- A request writes to the context that it has found. -/
def keep (id : Id) (request : Request Connection Line Service Chain Data)
    (context : Context Service Chain Data) :
    State Loader Connection Id Line Service Chain Data :=
  if request.context.isNone ∧ (state.leftContext request.connection).isSome then
    { state with
      connections := Function.update state.connections request.connection (some (some context))
      requests := Function.update state.requests id (some request) }
  else
    { state with
      requests := Function.update state.requests id
        (some { request with context := some context }) }

end State

inductive Action (LoaderAction Connection Id Line : Type*)
  | load (action : LoaderAction)
  /-- A connection without TLS. -/
  | connect (connection : Connection)
  | handshake (connection : Connection) (serverName : Option String)
  | accept (id : Id) (connection : Connection) (host : String) (line : Line)
  /-- The rewrite phase starts, and the configuration is loaded if it has to be. -/
  | rewrite (id : Id)
  /-- The rewrite phase goes on, with what has been loaded. -/
  | find (id : Id)
  /-- Another phase. -/
  | call (id : Id) (phase : Phase)

variable {Connection Id : Type*} [DecidableEq Connection] [DecidableEq Id]

namespace Gateway

variable (gateway : Gateway Loader LoaderAction Line Service Chain Data)

/-- The handshake fails when a policy exits. -/
def handshake (state : State Loader Connection Id Line Service Chain Data)
    (connection : Connection) (serverName : Option String) :
    State Loader Connection Id Line Service Chain Data :=
  let context := gateway.sslContext state.loader serverName gateway.freshContext
  let (data, exits) := gateway.call (gateway.findPolicyChain context) .sslCertificate context
  if exits then state
  else
    { state with
      connections := Function.update state.connections connection
        (some (clearTable (some { context with data }))) }

/-- A phase of a request, by the chain that its context leads to. -/
def callPhase (state : State Loader Connection Id Line Service Chain Data) (id : Id)
    (request : Request Connection Line Service Chain Data) (phase : Phase)
    (context : Context Service Chain Data) :
    State Loader Connection Id Line Service Chain Data :=
  let chain := gateway.findPolicyChain context
  let called := { request with calls := request.calls ++ [⟨phase, chain⟩] }
  state.keep id called { context with data := (gateway.call chain phase context).1 }

def machine : Machine (State Loader Connection Id Line Service Chain Data)
    (Action LoaderAction Connection Id Line) where
  initial := ⟨gateway.loader.initial, fun _ => none, fun _ => none⟩
  next state
    | .load action => (gateway.loader.next state.loader action).map fun loaded =>
        { state with loader := loaded }
    | .connect connection =>
        if (state.connections connection).isNone then
          some { state with
            connections := Function.update state.connections connection (some none) }
        else none
    | .handshake connection serverName =>
        if (state.connections connection).isNone then
          some (gateway.handshake state connection serverName)
        else none
    | .accept id connection host line =>
        if (state.requests id).isNone ∧ (state.connections connection).isSome then
          some { state with
            requests := Function.update state.requests id
              (some ⟨connection, host, line, none, false, []⟩) }
        else none
    | .rewrite id => (state.requests id).map fun request =>
        state.keep id { request with finding := true }
          (loadConfiguration (state.contextOf request gateway.freshContext) request.host)
    | .find id => (state.requests id).bind fun request =>
        if request.finding then
          some (gateway.callPhase state id { request with finding := false } .rewrite
            (gateway.buildChain (gateway.findServiceOf state.loader request.line
              (state.contextOf request gateway.freshContext))))
        else none
    | .call id phase => (state.requests id).bind fun request =>
        if phase ≠ .rewrite ∧ phase ≠ .sslCertificate then
          some (gateway.callPhase state id request phase
            (state.contextOf request gateway.freshContext))
        else none

end Gateway

section Runs

variable {gateway : Gateway Loader LoaderAction Line Service Chain Data}
  {past actions : List (Action LoaderAction Connection Id Line)}
  {action : Action LoaderAction Connection Id Line} {id : Id} {host : String} {line : Line}
  {state before after : State Loader Connection Id Line Service Chain Data}
  {request : Request Connection Line Service Chain Data}
  {context : Context Service Chain Data} {chain : Chain}

/-- Nothing has been found for a request. -/
structure Unserved (host : String) (context : Context Service Chain Data) : Prop where
  service : context.service = none
  policyChain : context.policyChain = none
  host : ∀ named ∈ context.host, named = host

/-- The chain is the one for the service that was found for the host and the line in the
configuration as it was when the rewrite phase of the request went on. -/
def Found (gateway : Gateway Loader LoaderAction Line Service Chain Data)
    (past : List (Action LoaderAction Connection Id Line)) (id : Id) (line : Line) (host : String)
    (chain : Chain) : Prop :=
  ∃ (earlier later : List (Action LoaderAction Connection Id Line))
    (middle : State Loader Connection Id Line Service Chain Data),
    past = earlier ++ .find id :: later ∧
      gateway.machine.run gateway.machine.initial earlier = some middle ∧
      chain = gateway.chainFor (gateway.findService middle.loader line host)

/-- A chain called before the rewrite phase is the default one. -/
def Early (gateway : Gateway Loader LoaderAction Line Service Chain Data)
    (calls : List (Call Chain)) : Prop :=
  ∀ call ∈ calls, call.phase ≠ .rewrite ∧ call.chain = gateway.defaultChain

/-- Where a request is on its way. -/
inductive Follows (gateway : Gateway Loader LoaderAction Line Service Chain Data)
    (past : List (Action LoaderAction Connection Id Line)) (id : Id)
    (request : Request Connection Line Service Chain Data) : Prop
  | waiting : Early gateway request.calls →
      (∀ context ∈ request.context, Unserved request.host context) →
      (request.finding = true →
        ∃ context, request.context = some context ∧ context.host = some request.host) →
      Follows gateway past id request
  | served {early late : List (Call Chain)} {chain : Chain}
      {context : Context Service Chain Data} :
      request.calls = early ++ ⟨.rewrite, chain⟩ :: late → Early gateway early →
      (∀ call ∈ late, call.chain = chain) → request.context = some context →
      context.policyChain = some chain →
      Found gateway past id request.line request.host chain → Follows gateway past id request

/-- No handshake leaves a context, and every request is on its way. -/
structure Recorded (gateway : Gateway Loader LoaderAction Line Service Chain Data)
    (past : List (Action LoaderAction Connection Id Line))
    (state : State Loader Connection Id Line Service Chain Data) : Prop where
  reached : gateway.machine.run gateway.machine.initial past = some state
  cleared : ∀ connection, state.leftContext connection = none
  requests : ∀ id request, state.requests id = some request → Follows gateway past id request

theorem Found.later (found : Found gateway past id line host chain)
    (action : Action LoaderAction Connection Id Line) :
    Found gateway (past ++ [action]) id line host chain := by
  obtain ⟨earlier, later, middle, split, reached, same⟩ := found
  refine ⟨earlier, later ++ [action], middle, ?_, reached, same⟩
  rw [split, List.append_assoc, List.cons_append]

theorem Follows.later (follows : Follows gateway past id request)
    (action : Action LoaderAction Connection Id Line) :
    Follows gateway (past ++ [action]) id request := by
  cases follows with
  | waiting early unserved named => exact .waiting early unserved named
  | served calls early late stored kept found =>
      exact .served calls early late stored kept (found.later action)

theorem unserved_fresh : Unserved host gateway.freshContext := ⟨rfl, rfl, nofun⟩

theorem Unserved.findPolicyChain (unserved : Unserved host context) :
    gateway.findPolicyChain context = gateway.defaultChain := by
  unfold Gateway.findPolicyChain
  rw [unserved.policyChain, unserved.service]
  rfl

theorem findPolicyChain_of_kept (kept : context.policyChain = some chain) :
    gateway.findPolicyChain context = chain := by
  unfold Gateway.findPolicyChain
  rw [kept]
  rfl

omit [DecidableEq Connection] [DecidableEq Id] in
/-- A request that has not been served finds a context without a service. -/
theorem unserved_contextOf (cleared : state.leftContext request.connection = none)
    (unserved : ∀ context ∈ request.context, Unserved request.host context) :
    Unserved request.host (state.contextOf request gateway.freshContext) := by
  unfold State.contextOf
  rw [cleared, Option.or_none]
  cases stored : request.context with
  | none => exact unserved_fresh
  | some context => exact unserved context stored

omit [DecidableEq Connection] [DecidableEq Id] in
theorem contextOf_of_stored (stored : request.context = some context)
    (fresh : Context Service Chain Data) : state.contextOf request fresh = context := by
  unfold State.contextOf
  rw [stored]
  rfl

/-- Without contexts of handshakes a request writes to its own. -/
theorem keep_of_cleared (cleared : state.leftContext request.connection = none) :
    state.keep id request context =
      { state with
        requests := Function.update state.requests id
          (some { request with context := some context }) } := by
  unfold State.keep
  rw [cleared]
  exact if_neg fun both => by cases both.2

/-- When a request goes on its way, the others stay on theirs. -/
theorem Recorded.keep (recorded : Recorded gateway past before)
    (stepped : gateway.machine.next before action = some (before.keep id request context))
    (follows : Follows gateway (past ++ [action]) id { request with context := some context }) :
    Recorded gateway (past ++ [action]) (before.keep id request context) := by
  have kept := @keep_of_cleared _ _ _ _ _ _ _ _ _ id before request context
    (recorded.cleared request.connection)
  refine ⟨Machine.run_concat recorded.reached stepped, ?_, ?_⟩
  · rw [kept]
    exact recorded.cleared
  · rw [kept]
    intro other found present
    change Function.update before.requests id _ other = some found at present
    by_cases same : other = id
    · subst same
      rw [Function.update_self] at present
      cases present
      exact follows
    · rw [Function.update_of_ne same] at present
      exact (recorded.requests other found present).later action

/-- The rewrite phase starts with the host of the request. -/
theorem Follows.rewrite (follows : Follows gateway past id request)
    (cleared : state.leftContext request.connection = none) :
    Follows gateway past id { request with
      finding := true
      context := some (Gateway.loadConfiguration (state.contextOf request gateway.freshContext)
        request.host) } := by
  cases follows with
  | waiting early unserved named =>
      have before : Unserved request.host (state.contextOf request gateway.freshContext) :=
        unserved_contextOf cleared unserved
      have own : (state.contextOf request gateway.freshContext).host.getD request.host =
          request.host := by
        cases host : (state.contextOf request gateway.freshContext).host with
        | none => rfl
        | some named => exact before.host named host
      refine .waiting early ?_ fun _ => ⟨_, rfl, congrArg some own⟩
      intro context stored
      cases stored
      refine ⟨before.service, before.policyChain, ?_⟩
      intro other present
      cases present
      exact own
  | served calls early late stored kept found =>
      refine .served calls early late rfl ?_ found
      rw [contextOf_of_stored stored]
      exact kept

/-- A phase is run by the default chain or by the chain of the request. -/
theorem Follows.call {phase : Phase} {data : Data} (follows : Follows gateway past id request)
    (cleared : state.leftContext request.connection = none) (other : phase ≠ .rewrite) :
    let context := state.contextOf request gateway.freshContext
    Follows gateway past id { request with
      calls := request.calls ++ [⟨phase, gateway.findPolicyChain context⟩]
      context := some { context with data } } := by
  intro context
  cases follows with
  | waiting early unserved named =>
      have before : Unserved request.host (state.contextOf request gateway.freshContext) :=
        unserved_contextOf cleared unserved
      refine .waiting ?_ ?_ ?_
      · intro call member
        rcases List.mem_append.mp member with earlier | now
        · exact early call earlier
        · rw [List.mem_singleton.mp now]
          exact ⟨other, before.findPolicyChain⟩
      · intro later stored
        cases stored
        exact ⟨before.service, before.policyChain, before.host⟩
      · intro finding
        obtain ⟨known, stored, host⟩ := named finding
        refine ⟨_, rfl, ?_⟩
        change (state.contextOf request gateway.freshContext).host = _
        rw [contextOf_of_stored stored]
        exact host
  | @served first late chain known calls early same stored kept found =>
      have own : context = known := contextOf_of_stored stored _
      have extended : request.calls ++ [⟨phase, gateway.findPolicyChain context⟩] =
          first ++ ⟨.rewrite, chain⟩ :: (late ++ [⟨phase, chain⟩]) := by
        rw [calls, own, findPolicyChain_of_kept kept, List.append_assoc, List.cons_append]
      refine .served extended early ?_ rfl ?_ found
      · intro call member
        rcases List.mem_append.mp member with earlier | now
        · exact same call earlier
        · rw [List.mem_singleton.mp now]
      · rw [own]
        exact kept

/-- The rewrite phase goes on with the service that is found for the request, unless its chain is
known. -/
theorem Follows.find {data : Data} (follows : Follows gateway past id request)
    (reached : gateway.machine.run gateway.machine.initial past = some state)
    (cleared : state.leftContext request.connection = none) (finding : request.finding = true) :
    let context := gateway.buildChain (gateway.findServiceOf state.loader request.line
      (state.contextOf request gateway.freshContext))
    Follows gateway (past ++ [.find id]) id { request with
      finding := false
      calls := request.calls ++ [⟨.rewrite, gateway.findPolicyChain context⟩]
      context := some { context with data } } := by
  intro context
  have built : context.policyChain = some (gateway.findPolicyChain context) := by
    rw [findPolicyChain_of_kept rfl]
    rfl
  cases follows with
  | waiting early unserved named =>
      have before : Unserved request.host (state.contextOf request gateway.freshContext) :=
        unserved_contextOf cleared unserved
      obtain ⟨known, stored, host⟩ := named finding
      have own : (state.contextOf request gateway.freshContext).host = some request.host := by
        rw [contextOf_of_stored stored]
        exact host
      have chosen : gateway.findPolicyChain context =
          gateway.chainFor (gateway.findService state.loader request.line request.host) := by
        rw [findPolicyChain_of_kept rfl]
        unfold Gateway.findPolicyChain Gateway.findServiceOf Gateway.chainFor
        dsimp only
        rw [before.policyChain, before.service, own]
        rfl
      exact .served rfl early nofun rfl built ⟨past, [], state, rfl, reached, chosen⟩
  | @served first late chain known calls early same stored kept found =>
      have own : gateway.findPolicyChain context = chain := by
        apply findPolicyChain_of_kept
        unfold context
        rw [contextOf_of_stored stored]
        exact congrArg some (findPolicyChain_of_kept kept)
      have extended : request.calls ++ [⟨.rewrite, gateway.findPolicyChain context⟩] =
          first ++ ⟨.rewrite, chain⟩ :: (late ++ [⟨.rewrite, chain⟩]) := by
        rw [calls, own, List.append_assoc, List.cons_append]
      refine .served extended early ?_ rfl (own ▸ built) (found.later _)
      intro call member
      rcases List.mem_append.mp member with earlier | now
      · exact same call earlier
      · rw [List.mem_singleton.mp now]

omit [DecidableEq Id] in
/-- A connection is opened without a context. -/
theorem leftContext_open (connection : Connection) (other : Connection)
    (cleared : state.leftContext other = none) :
    State.leftContext { state with
      connections := Function.update state.connections connection (some none) } other = none := by
  change (Function.update state.connections connection (some none) other).join = none
  by_cases same : other = connection
  · subst same
    rw [Function.update_self]
    rfl
  · rw [Function.update_of_ne same]
    exact cleared

/-- What every step keeps. -/
theorem Recorded.next (recorded : Recorded gateway past before)
    (stepped : gateway.machine.next before action = some after) :
    Recorded gateway (past ++ [action]) after := by
  have reached := Machine.run_concat recorded.reached stepped
  have others (id : Id) (request : Request Connection Line Service Chain Data)
      (present : before.requests id = some request) :
      Follows gateway (past ++ [action]) id request :=
    (recorded.requests id request present).later action
  cases action with
  | load action =>
      obtain ⟨loaded, _, rfl⟩ := Option.map_eq_some_iff.mp stepped
      exact ⟨reached, recorded.cleared, others⟩
  | connect connection =>
      obtain ⟨_, rfl⟩ := Option.ite_none_right_eq_some.mp stepped |>.imp_right Option.some.inj
      exact ⟨reached, fun other => leftContext_open connection other (recorded.cleared other),
        others⟩
  | handshake connection serverName =>
      obtain ⟨_, same⟩ := Option.ite_none_right_eq_some.mp stepped |>.imp_right Option.some.inj
      unfold Gateway.handshake at same
      dsimp only at same
      split at same
      · subst same
        exact ⟨reached, recorded.cleared, others⟩
      · subst same
        exact ⟨reached, fun other => leftContext_open connection other (recorded.cleared other),
          others⟩
  | accept id connection host line =>
      obtain ⟨_, rfl⟩ := Option.ite_none_right_eq_some.mp stepped |>.imp_right Option.some.inj
      refine ⟨reached, recorded.cleared, ?_⟩
      intro other request present
      change Function.update before.requests id _ other = some request at present
      by_cases same : other = id
      · subst same
        rw [Function.update_self] at present
        cases present
        exact .waiting nofun nofun nofun
      · rw [Function.update_of_ne same] at present
        exact others other request present
  | rewrite id =>
      obtain ⟨request, present, rfl⟩ := Option.map_eq_some_iff.mp stepped
      exact recorded.keep stepped
        ((others id request present).rewrite (recorded.cleared request.connection))
  | find id =>
      obtain ⟨request, present, stepped'⟩ := Option.bind_eq_some_iff.mp stepped
      obtain ⟨finding, rfl⟩ :=
        Option.ite_none_right_eq_some.mp stepped' |>.imp_right Option.some.inj
      exact recorded.keep stepped ((recorded.requests id request present).find recorded.reached
        (recorded.cleared request.connection) finding)
  | call id phase =>
      obtain ⟨request, present, stepped'⟩ := Option.bind_eq_some_iff.mp stepped
      obtain ⟨phases, rfl⟩ :=
        Option.ite_none_right_eq_some.mp stepped' |>.imp_right Option.some.inj
      exact recorded.keep stepped
        ((others id request present).call (recorded.cleared request.connection) phases.1)

theorem recorded_run
    (executed : gateway.machine.run gateway.machine.initial actions = some state) :
    Recorded gateway actions state := by
  have initially : Recorded gateway ([] : List (Action LoaderAction Connection Id Line))
      gateway.machine.initial := ⟨rfl, fun _ => rfl, nofun⟩
  exact Machine.run_records initially (fun _ _ _ _ => Recorded.next) executed

/-- The chains that were called for a request. -/
theorem Recorded.calls (recorded : Recorded gateway actions state)
    (present : state.requests id = some request) :
    ∃ early late, request.calls = early ++ late ∧
      (∀ call ∈ early, call.phase ≠ .rewrite ∧ call.chain = gateway.defaultChain) ∧
      (late = [] ∨ ∃ chain, Found gateway actions id request.line request.host chain ∧
        (∀ call ∈ late, call.chain = chain) ∧ ∃ first ∈ late.head?, first.phase = .rewrite) := by
  cases recorded.requests id request present with
  | waiting early _ _ => exact ⟨request.calls, [], (List.append_nil _).symm, early, .inl rfl⟩
  | @served before late chain _ calls early same _ _ found =>
      refine ⟨before, ⟨.rewrite, chain⟩ :: late, calls, early, .inr ⟨chain, found, ?_, ?_⟩⟩
      · intro call member
        rcases List.mem_cons.mp member with rfl | later
        · rfl
        · exact same call later
      · exact ⟨_, rfl, rfl⟩

/-- **One chain for a request.** However the configuration is replaced, other requests are served
and handshakes name hosts in between: the phases of a request before its rewrite phase run the
default chain, and from then on all phases run the chain of the service that was found for the
host and the line of the request in the configuration as it was then. No connection keeps a context
of its handshake, so that a request only ever goes on with its own. -/
theorem one_chain
    (executed : gateway.machine.run gateway.machine.initial actions = some state)
    (present : state.requests id = some request) :
    (∃ early late, request.calls = early ++ late ∧
      (∀ call ∈ early, call.phase ≠ .rewrite ∧ call.chain = gateway.defaultChain) ∧
      (late = [] ∨ ∃ chain, Found gateway actions id request.line request.host chain ∧
        (∀ call ∈ late, call.chain = chain) ∧ ∃ first ∈ late.head?, first.phase = .rewrite)) ∧
      (∀ connection, state.leftContext connection = none) ∧
      ∀ fresh, state.contextOf request fresh = request.context.getD fresh := by
  have recorded := recorded_run executed
  refine ⟨recorded.calls present, recorded.cleared, fun fresh => ?_⟩
  unfold State.contextOf
  rw [recorded.cleared, Option.or_none]

end Runs

/-- A loader with two configurations, each of which has one service for all hosts. -/
private def swapping : Gateway Bool Unit Unit Bool Bool Unit where
  loader := ⟨false, fun loaded _ => some !loaded⟩
  findService loaded _ _ := some loaded
  hostBasedFinder loaded _ := some loaded
  hostBased := true
  policyChainOf := some
  defaultChain := false
  buildContext := ()
  call _ _ _ := ((), false)

/-- A request during which the configuration is replaced. -/
theorem one_chain_swapping :
    let actions : List (Action Unit Bool Bool Unit) := [.handshake true (some "a"), .load (),
      .accept true true "b" (), .rewrite true, .find true, .load (), .call true .access]
    ∃ state request, swapping.machine.run swapping.machine.initial actions = some state ∧
      state.requests true = some request ∧ (∃ early late, request.calls = early ++ late ∧
        (∀ call ∈ early, call.phase ≠ .rewrite ∧ call.chain = false) ∧
        (late = [] ∨ ∃ chain, Found swapping actions true () request.host chain ∧
          (∀ call ∈ late, call.chain = chain) ∧ ∃ first ∈ late.head?, first.phase = .rewrite)) ∧
      ∀ connection, state.leftContext connection = none := by
  intro actions
  have runs : ((swapping.machine.run swapping.machine.initial actions).bind
      (·.requests true)).isSome := by decide
  obtain ⟨request, both⟩ := Option.isSome_iff_exists.mp runs
  obtain ⟨state, executed, present⟩ := Option.bind_eq_some_iff.mp both
  obtain ⟨calls, cleared, -⟩ := one_chain executed present
  exact ⟨state, request, executed, present, calls, cleared⟩

section Loading

variable {gateway : Gateway Loader LoaderAction Line Service Chain Data}
  {actions : List (Action LoaderAction Connection Id Line)}
  {action : Action LoaderAction Connection Id Line}
  {state before after : State Loader Connection Id Line Service Chain Data}

/-- What an action is for the loader. -/
def Action.ofLoader : Action LoaderAction Connection Id Line → Option LoaderAction
  | .load action => some action
  | _ => none

/-- What the loader did among the actions. -/
def loaderActions (actions : List (Action LoaderAction Connection Id Line)) : List LoaderAction :=
  actions.filterMap Action.ofLoader

theorem loader_keep (id : Id) (request : Request Connection Line Service Chain Data)
    (context : Context Service Chain Data) :
    (state.keep id request context).loader = state.loader := by
  unfold State.keep
  split <;> rfl

/-- Only its own actions change the loader. -/
theorem loader_next (stepped : gateway.machine.next before action = some after) :
    match action.ofLoader with
    | some action => gateway.loader.next before.loader action = some after.loader
    | none => after.loader = before.loader := by
  cases action with
  | load action =>
      obtain ⟨loaded, moved, rfl⟩ := Option.map_eq_some_iff.mp stepped
      change gateway.loader.next before.loader action = some loaded
      exact moved
  | connect connection =>
      obtain ⟨_, rfl⟩ := Option.ite_none_right_eq_some.mp stepped |>.imp_right Option.some.inj
      rfl
  | handshake connection serverName =>
      obtain ⟨_, rfl⟩ := Option.ite_none_right_eq_some.mp stepped |>.imp_right Option.some.inj
      change (gateway.handshake before connection serverName).loader = before.loader
      unfold Gateway.handshake
      dsimp only
      split <;> rfl
  | accept id connection host line =>
      obtain ⟨_, rfl⟩ := Option.ite_none_right_eq_some.mp stepped |>.imp_right Option.some.inj
      rfl
  | rewrite id =>
      obtain ⟨request, _, rfl⟩ := Option.map_eq_some_iff.mp stepped
      exact loader_keep _ _ _
  | find id =>
      obtain ⟨request, _, stepped⟩ := Option.bind_eq_some_iff.mp stepped
      obtain ⟨_, rfl⟩ := Option.ite_none_right_eq_some.mp stepped |>.imp_right Option.some.inj
      exact loader_keep _ _ _
  | call id phase =>
      obtain ⟨request, _, stepped⟩ := Option.bind_eq_some_iff.mp stepped
      obtain ⟨_, rfl⟩ := Option.ite_none_right_eq_some.mp stepped |>.imp_right Option.some.inj
      exact loader_keep _ _ _

/-- The loader runs as it does alone. -/
theorem loader_run
    (executed : gateway.machine.run gateway.machine.initial actions = some state) :
    gateway.loader.run gateway.loader.initial (loaderActions actions) = some state.loader := by
  let records (past : List (Action LoaderAction Connection Id Line))
      (state : State Loader Connection Id Line Service Chain Data) : Prop :=
    gateway.loader.run gateway.loader.initial (loaderActions past) = some state.loader
  have initially : records [] gateway.machine.initial := rfl
  refine Machine.run_records initially ?_ executed
  intro past before action after held stepped
  have moved := loader_next stepped
  unfold records loaderActions
  rw [List.filterMap_append]
  cases own : action.ofLoader with
  | none =>
      rw [own] at moved
      rw [List.filterMap_cons_none own, List.filterMap_nil, List.append_nil, moved]
      exact held
  | some loads =>
      rw [own] at moved
      rw [List.filterMap_cons_some own, List.filterMap_nil]
      exact Machine.run_concat held moved

end Loading

section Boot

variable {Value Rule : Type*} [DecidableEq (Apicast.Service Value)]

/-- The gateway with a worker in boot mode. -/
def bootGateway (settings : BootLoader.Settings Value) (worker : BootLoader Value)
    (rules : Apicast.Service Value → List Rule) (ruleMatches : Line → Rule → Bool)
    (pathRoutingEnabled pathRoutingOnly : Bool)
    (policyChainOf : Apicast.Service Value → Option Chain) (defaultChain : Chain)
    (buildContext : Data)
    (call : Chain → Phase → Context (Apicast.Service Value) Chain Data → Data × Bool) :
    Gateway (BootLoader Value) (BootLoader.Action Value) Line (Apicast.Service Value) Chain
      Data where
  loader := BootLoader.machine settings worker
  findService loaded line host :=
    FindService.findServiceFunc rules (ruleMatches line) pathRoutingEnabled pathRoutingOnly
      loaded.configuration loaded.now host
  hostBasedFinder loaded host :=
    FindService.hostBasedFinder loaded.configuration loaded.now host
  hostBased := !pathRoutingEnabled && !pathRoutingOnly
  policyChainOf
  defaultChain
  buildContext
  call

/-- **A request is never served by the policies of a service that is not for its host.** However
requests, handshakes and reloads interleave in a worker in boot mode, every chain that is called
for a request is the default one, or the one of a service with the host of the request in a
configuration that counted when the service was looked for. -/
theorem boot_serves_listed {settings : BootLoader.Settings Value}
    {booted : RawConfiguration Value} {configuration : ConfigurationStore Value}
    {masterStart start : Int} {created : Bool}
    {rules : Apicast.Service Value → List Rule} {ruleMatches : Line → Rule → Bool}
    {pathRoutingEnabled pathRoutingOnly : Bool}
    {policyChainOf : Apicast.Service Value → Option Chain} {defaultChain : Chain}
    {buildContext : Data}
    {policies : Chain → Phase → Context (Apicast.Service Value) Chain Data → Data × Bool}
    {actions : List (Action (BootLoader.Action Value) Connection Id Line)}
    {state : State (BootLoader Value) Connection Id Line (Apicast.Service Value) Chain Data}
    {id : Id} {request : Request Connection Line (Apicast.Service Value) Chain Data}
    (started : BootLoader.init settings masterStart (some booted) = some configuration) :
    let gateway := bootGateway settings
      (BootLoader.initWorker settings configuration start created) rules ruleMatches
      pathRoutingEnabled pathRoutingOnly policyChainOf defaultChain buildContext policies
    gateway.machine.run gateway.machine.initial actions = some state →
      state.requests id = some request → ∀ call ∈ request.calls, call.chain = defaultChain ∨
        ∃ earlier later config service, actions = earlier ++ .find id :: later ∧
          config ∈ BootLoader.journal settings booted (loaderActions earlier) ∧
          service ∈ FindService.distinctServices config ∧ request.host ∈ service.hosts ∧
          policyChainOf service = some call.chain := by
  intro gateway executed present call member
  obtain ⟨early, late, calls, defaults, served⟩ := (recorded_run executed).calls present
  rw [calls] at member
  rcases List.mem_append.mp member with before | after
  · exact .inl (defaults call before).2
  · rcases served with nothing | ⟨chain, ⟨earlier, later, middle, split, reached, chosen⟩, same, _⟩
    · rw [nothing] at after
      cases after
    · have own := same call after
      rw [chosen] at own
      cases found : gateway.findService middle.loader request.line request.host with
      | none =>
          rw [found] at own
          exact .inl own
      | some service =>
          rw [found] at own
          cases serves : policyChainOf service with
          | none => exact .inl (own.trans (congrArg (·.getD defaultChain) serves))
          | some chain =>
              right
              obtain ⟨listed, within⟩ := FindService.findServiceFunc_sound found
              have records := BootLoader.records_run started (loader_run reached)
              obtain ⟨config, counted, loaded⟩ := records.exists_load listed
              refine ⟨earlier, later, config, service, split, counted, loaded, within, ?_⟩
              rw [own.trans (congrArg (·.getD defaultChain) serves)]
              exact serves

/-- A worker in boot mode whose policies do nothing. -/
private def quietGateway (configuration : ConfigurationStore Unit) :
    Gateway (BootLoader Unit) (BootLoader.Action Unit) Unit (Apicast.Service Unit) String Unit :=
  bootGateway BootLoader.minutely
    (BootLoader.initWorker BootLoader.minutely configuration 0 true) (fun _ => ([] : List Unit))
    (fun _ _ => true) false false (fun service => some service.id) "default" () fun _ _ _ =>
      ((), false)

/-- A request for the host of a service that a reload brings. -/
theorem boot_serves_listed_reload :
    let booted := BootLoader.oneService "1" "a.test"
    let contents := BootLoader.oneService "2" "b.test"
    let actions : List (Action (BootLoader.Action Unit) Bool Bool Unit) :=
      [.connect true, .load (.tick 60), .load (.fire 60 false),
        .load (.refresh (some contents) true), .accept true true "b.test" (), .rewrite true,
        .find true, .call true .content]
    ∃ configuration state request,
      BootLoader.init BootLoader.minutely 0 (some booted) = some configuration ∧
      (quietGateway configuration).machine.run (quietGateway configuration).machine.initial
        actions = some state ∧
      state.requests true = some request ∧ ∀ call ∈ request.calls, call.chain = "default" ∨
        ∃ earlier later config service, actions = earlier ++ .find true :: later ∧
          config ∈ BootLoader.journal BootLoader.minutely booted (loaderActions earlier) ∧
          service ∈ FindService.distinctServices config ∧ request.host ∈ service.hosts ∧
          some service.id = some call.chain := by
  intro booted contents actions
  have runs : ((BootLoader.init BootLoader.minutely 0 (some booted)).bind fun configuration =>
      ((quietGateway configuration).machine.run (quietGateway configuration).machine.initial
        actions).bind (·.requests true)).isSome := by decide
  obtain ⟨request, all⟩ := Option.isSome_iff_exists.mp runs
  obtain ⟨configuration, started, both⟩ := Option.bind_eq_some_iff.mp all
  obtain ⟨state, executed, present⟩ := Option.bind_eq_some_iff.mp both
  exact ⟨configuration, state, request, started, executed, present,
    boot_serves_listed started executed present⟩

end Boot

end Apicast.RequestPipeline
