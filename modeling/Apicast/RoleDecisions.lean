import Apicast.Foundation.FallibleLoop
import Apicast.KeycloakRoleCheck

/-!
# Decisions of the role check

A scope decides a request that it covers when its roles are in the token, or when they cannot be
read. The loop over the scopes ends at the first scope that decides the request.
-/

namespace Apicast.KeycloakRoleCheck

open Foundation
open JwtClaimCheck (Library mappingRuleMatches anyMethod)

variable {Number : Type*}

/-! ## What a token says -/

/-- The claim lists the role. -/
def Lists (claim : LuaValue Number) (role : String) : Prop :=
  ∃ fields items, claim = .json (.object fields) ∧
    (Json.object fields).field "roles" = some (.array items) ∧ Json.string role ∈ items

def HasRealmRole (payload : Payload Number) (name : String) : Prop :=
  ∃ claim, payload.claim "realm_access" = some claim ∧ Lists claim name

def HasClientRole (payload : Payload Number) (client name : String) : Prop :=
  ∃ clients claim, payload.claim "resource_access" = some (.json (.object clients)) ∧
    (Json.object clients).field client = some claim ∧ Lists (.json claim) name

/-- The roles of the claim cannot be read, and what this raises. -/
inductive Unreadable (stringFunctions : String → Bool) (claim : LuaValue Number) : String → Prop
  | claim (other : ¬ claim.Indexable) : Unreadable stringFunctions claim claim.indexError
  | roles {roles : LuaValue Number}
      (found : LuaValue.truthyField (claim.fieldOf stringFunctions "roles") = some roles)
      (other : ¬ roles.IsTable) : Unreadable stringFunctions claim roles.ipairsError

def UnreadableRealm (stringFunctions : String → Bool) (payload : Payload Number)
    (message : String) : Prop :=
  ∃ claim, payload.claim "realm_access" = some claim ∧ Unreadable stringFunctions claim message

/-- The clients of the token cannot be read, or the roles of the client cannot. -/
inductive UnreadableClient (stringFunctions : String → Bool) (payload : Payload Number)
    (client : String) : String → Prop
  | clients {clients : LuaValue Number} (found : payload.claim "resource_access" = some clients)
      (other : ¬ clients.Indexable) :
      UnreadableClient stringFunctions payload client clients.indexError
  | client {clients claim : LuaValue Number} {message : String}
      (found : payload.claim "resource_access" = some clients)
      (present : LuaValue.truthyField (clients.fieldOf stringFunctions client) = some claim)
      (unreadable : Unreadable stringFunctions claim message) :
      UnreadableClient stringFunctions payload client message

section Claims

variable {stringFunctions : String → Bool} {payload : Payload Number} {claim : LuaValue Number}
  {role client name message : String}

/-- What reading the roles of a claim comes to. -/
theorem checkRolesOf_eq :
    checkRolesOf stringFunctions role claim =
      if claim.Indexable then
        match LuaValue.truthyField (claim.fieldOf stringFunctions "roles") with
        | none => .ok false
        | some roles => roles.ipairs.map fun items => items.any (·.isString role)
      else .error claim.indexError := by
  unfold checkRolesOf LuaValue.index
  split <;> rfl

/-- Looking for a role raises an error exactly where the claim cannot be read. -/
theorem checkRolesOf_error_iff :
    checkRolesOf stringFunctions role claim = .error message ↔
      Unreadable stringFunctions claim message := by
  rw [checkRolesOf_eq]
  constructor
  · intro failed
    split at failed
    · split at failed
      · cases failed
      · rename_i roles found
        by_cases table : roles.IsTable
        · rw [LuaValue.ipairs_of_isTable table] at failed
          cases failed
        · rw [LuaValue.ipairs_of_not_isTable table] at failed
          cases failed
          exact .roles found table
    · rename_i other
      cases failed
      exact .claim other
  · intro unreadable
    cases unreadable with
    | claim other => exact if_neg other
    | roles found other =>
        have indexable := LuaValue.indexable_of_fieldOf (LuaValue.truthyField_eq_some.mp found).1
        rw [if_pos indexable, found]
        dsimp only
        rw [LuaValue.ipairs_of_not_isTable other]
        rfl

theorem any_isString_iff {items : List (Json Number)} :
    items.any (·.isString role) = true ↔ Json.string role ∈ items := by
  simp only [List.any_eq_true, Json.isString_iff, exists_eq_right]

/-- A role is found exactly where the claim lists it. -/
theorem checkRolesOf_true_iff :
    checkRolesOf stringFunctions role claim = .ok true ↔ Lists claim role := by
  rw [checkRolesOf_eq]
  constructor
  · intro passes
    split at passes
    · split at passes
      · cases passes
      · rename_i roles found
        by_cases table : roles.IsTable
        · rw [LuaValue.ipairs_of_isTable table] at passes
          obtain ⟨items, rfl, member⟩ :=
            LuaValue.mem_itemsOf.mp (any_isString_iff.mp (Except.ok.inj passes))
          obtain ⟨fields, rfl, listed⟩ :=
            LuaValue.fieldOf_eq_json.mp (LuaValue.truthyField_eq_some.mp found).1
          exact ⟨fields, items, rfl, listed, member⟩
        · rw [LuaValue.ipairs_of_not_isTable table] at passes
          cases passes
    · cases passes
  · rintro ⟨fields, items, rfl, listed, member⟩
    have found : LuaValue.truthyField
        (LuaValue.fieldOf stringFunctions "roles" (.json (.object fields))) =
          some (.json (.array items)) :=
      LuaValue.truthyField_eq_some.mpr ⟨LuaValue.fieldOf_eq_json.mpr ⟨fields, rfl, listed⟩, rfl⟩
    have indexable : (LuaValue.json (Json.object fields)).Indexable := trivial
    rw [if_pos indexable, found]
    exact congrArg Except.ok (any_isString_iff.mpr member)

theorem matchRealmRole_error_iff :
    matchRealmRole stringFunctions payload name = .error message ↔
      UnreadableRealm stringFunctions payload message := by
  unfold matchRealmRole UnreadableRealm
  cases payload.claim "realm_access" with
  | none => simp only [reduceCtorEq, false_and, exists_false]
  | some claim => simp only [checkRolesOf_error_iff, Option.some.injEq, exists_eq_left']

/-- A realm role matches exactly when the token has it. -/
theorem matchRealmRole_true_iff :
    matchRealmRole stringFunctions payload name = .ok true ↔ HasRealmRole payload name := by
  unfold matchRealmRole HasRealmRole
  cases payload.claim "realm_access" with
  | none => simp only [Except.ok.injEq, Bool.false_eq_true, reduceCtorEq, false_and, exists_false]
  | some claim => simp only [checkRolesOf_true_iff, Option.some.injEq, exists_eq_left']

/-- What reading the roles of a client comes to. -/
theorem matchClientRole_eq {clients : LuaValue Number}
    (found : payload.claim "resource_access" = some clients) :
    matchClientRole stringFunctions payload client name =
      if clients.Indexable then
        match LuaValue.truthyField (clients.fieldOf stringFunctions client) with
        | none => .ok false
        | some claim => checkRolesOf stringFunctions name claim
      else .error clients.indexError := by
  unfold matchClientRole LuaValue.index
  rw [found]
  dsimp only
  split <;> rfl

theorem matchClientRole_of_none (missing : payload.claim "resource_access" = none) :
    matchClientRole stringFunctions payload client name = .ok false := by
  unfold matchClientRole
  rw [missing]

theorem matchClientRole_error_iff :
    matchClientRole stringFunctions payload client name = .error message ↔
      UnreadableClient stringFunctions payload client message := by
  constructor
  · intro failed
    cases found : payload.claim "resource_access" with
    | none => cases (matchClientRole_of_none found).symm.trans failed
    | some clients =>
        rw [matchClientRole_eq found] at failed
        split at failed
        · split at failed
          · cases failed
          · rename_i claim present
            exact .client found present (checkRolesOf_error_iff.mp failed)
        · rename_i other
          cases failed
          exact .clients found other
  · intro unreadable
    cases unreadable with
    | clients found other => rw [matchClientRole_eq found, if_neg other]
    | client found present unreadable =>
        have indexable := LuaValue.indexable_of_fieldOf (LuaValue.truthyField_eq_some.mp present).1
        rw [matchClientRole_eq found, if_pos indexable, present]
        exact checkRolesOf_error_iff.mpr unreadable

/-- A client role matches exactly when the token has it for the client. -/
theorem matchClientRole_true_iff :
    matchClientRole stringFunctions payload client name = .ok true ↔
      HasClientRole payload client name := by
  constructor
  · intro passes
    cases found : payload.claim "resource_access" with
    | none => cases (matchClientRole_of_none found).symm.trans passes
    | some clients =>
        rw [matchClientRole_eq found] at passes
        split at passes
        · split at passes
          · cases passes
          · rename_i claim present
            obtain ⟨fields, items, rfl, listed, member⟩ := checkRolesOf_true_iff.mp passes
            obtain ⟨others, rfl, own⟩ :=
              LuaValue.fieldOf_eq_json.mp (LuaValue.truthyField_eq_some.mp present).1
            exact ⟨others, _, found, own, fields, items, rfl, listed, member⟩
        · cases passes
  · rintro ⟨clients, claim, found, own, lists⟩
    have truthy : (LuaValue.json claim).truthy = true := by
      obtain ⟨fields, items, same, _⟩ := lists
      rw [same]
      rfl
    have present : LuaValue.truthyField
        (LuaValue.fieldOf stringFunctions client (.json (.object clients))) = some (.json claim) :=
      LuaValue.truthyField_eq_some.mpr ⟨LuaValue.fieldOf_eq_json.mpr ⟨clients, rfl, own⟩, truthy⟩
    have indexable : (LuaValue.json (Json.object clients)).Indexable := trivial
    rw [matchClientRole_eq found, if_pos indexable, present]
    exact checkRolesOf_true_iff.mpr lists

end Claims

/-! ## What a scope decides -/

section Scopes

variable (library : Library (Context Number)) (stringFunctions : String → Bool)
  (context : Context Number) (payload : Payload Number) (request : Request)

/-- A method of the scope and its pattern match the request. -/
def covers (scope : Scope) : Bool :=
  scope.methods.any (methodMatches library context request scope)

def HasRealmRoles (scope : Scope) : Prop :=
  ∀ roles ∈ scope.realmRoles, ∀ role ∈ roles,
    HasRealmRole payload (role.render library context)

def HasClientRoles (scope : Scope) : Prop :=
  ∀ roles ∈ scope.clientRoles, ∀ role ∈ roles,
    HasClientRole payload (role.client.render library context) (role.name.render library context)

/-- All roles of the scope are in the token. -/
def HasRoles (scope : Scope) : Prop :=
  HasRealmRoles library context payload scope ∧ HasClientRoles library context payload scope

/-- The first role of the scope that is not found in the token cannot be looked up. -/
inductive UnreadableScope (scope : Scope) (message : String) : Prop
  | realm {role : Template} {roles : List Template}
      (needed : scope.realmRoles = some (role :: roles))
      (unreadable : UnreadableRealm stringFunctions payload message)
  | client {passed rest : List ClientTemplates} {role : ClientTemplates}
      (realm : HasRealmRoles library context payload scope)
      (needed : scope.clientRoles = some (passed ++ role :: rest))
      (had : ∀ other ∈ passed, HasClientRole payload (other.client.render library context)
        (other.name.render library context))
      (unreadable : UnreadableClient stringFunctions payload (role.client.render library context)
        message)

/-- A scope decides the request when it covers it and its roles are not denied. -/
def decides (scope : Scope) : Bool :=
  covers library context request scope &&
    match matchRoles library stringFunctions context payload scope with
    | .ok false => false
    | _ => true

variable {library stringFunctions context payload request} {scope : Scope} {message : String}

theorem matchRealmRoles_true_iff :
    matchRealmRoles library stringFunctions context payload scope = .ok true ↔
      HasRealmRoles library context payload scope := by
  unfold matchRealmRoles HasRealmRoles
  cases scope.realmRoles with
  | none => simp
  | some roles =>
      simp only [FallibleLoop.allM_eq_true, matchRealmRole_true_iff, Option.mem_some_iff,
        forall_eq']

theorem matchRealmRoles_error_iff :
    matchRealmRoles library stringFunctions context payload scope = .error message ↔
      ∃ role roles, scope.realmRoles = some (role :: roles) ∧
        UnreadableRealm stringFunctions payload message := by
  unfold matchRealmRoles
  cases scope.realmRoles with
  | none => simp
  | some roles =>
      simp only [FallibleLoop.allM_eq_error, matchRealmRole_error_iff]
      constructor
      · rintro ⟨passed, role, rest, rfl, before, unreadable⟩
        cases passed with
        | nil => exact ⟨role, rest, rfl, unreadable⟩
        | cons first passed =>
            cases (before first List.mem_cons_self).symm.trans
              (matchRealmRole_error_iff.mpr unreadable)
      · rintro ⟨role, rest, same, unreadable⟩
        exact ⟨[], role, rest, Option.some.inj same, List.forall_mem_nil _, unreadable⟩

theorem matchClientRoles_true_iff :
    matchClientRoles library stringFunctions context payload scope = .ok true ↔
      HasClientRoles library context payload scope := by
  unfold matchClientRoles HasClientRoles
  cases scope.clientRoles with
  | none => simp
  | some roles =>
      simp only [FallibleLoop.allM_eq_true, matchClientRole_true_iff, Option.mem_some_iff,
        forall_eq']

/-- The client roles raise an error at the first one that cannot be read, if all before it were
found. -/
theorem matchClientRoles_error_iff :
    matchClientRoles library stringFunctions context payload scope = .error message ↔
      ∃ passed role rest, scope.clientRoles = some (passed ++ role :: rest) ∧
        (∀ other ∈ passed, HasClientRole payload (other.client.render library context)
          (other.name.render library context)) ∧
        UnreadableClient stringFunctions payload (role.client.render library context) message := by
  unfold matchClientRoles
  cases scope.clientRoles with
  | none => simp
  | some roles =>
      simp only [FallibleLoop.allM_eq_error, matchClientRole_error_iff, matchClientRole_true_iff,
        Option.some.injEq]

/-- The roles of a scope are matched when the token has them. -/
theorem matchRoles_true_iff :
    matchRoles library stringFunctions context payload scope = .ok true ↔
      HasRoles library context payload scope := by
  have realm : matchRealmRoles library stringFunctions context payload scope = .ok true ↔
      HasRealmRoles library context payload scope := matchRealmRoles_true_iff
  have client : matchClientRoles library stringFunctions context payload scope = .ok true ↔
      HasClientRoles library context payload scope := matchClientRoles_true_iff
  unfold matchRoles HasRoles
  rw [← realm, ← client]
  cases matchRealmRoles library stringFunctions context payload scope with
  | error failure => simp [Except.bind]
  | ok realm => cases realm <;> simp [Except.bind]

/-- Matching the roles of a scope fails when they cannot be read. -/
theorem matchRoles_error_iff :
    matchRoles library stringFunctions context payload scope = .error message ↔
      UnreadableScope library stringFunctions context payload scope message := by
  have parts : matchRoles library stringFunctions context payload scope = .error message ↔
      matchRealmRoles library stringFunctions context payload scope = .error message ∨
        matchRealmRoles library stringFunctions context payload scope = .ok true ∧
          matchClientRoles library stringFunctions context payload scope = .error message := by
    unfold matchRoles
    cases matchRealmRoles library stringFunctions context payload scope with
    | error failure => simp [Except.bind]
    | ok realm => cases realm <;> simp [Except.bind]
  rw [parts, matchRealmRoles_error_iff, matchRealmRoles_true_iff, matchClientRoles_error_iff]
  constructor
  · rintro (⟨role, roles, needed, unreadable⟩ |
      ⟨realm, passed, role, rest, needed, had, unreadable⟩)
    · exact .realm needed unreadable
    · exact .client realm needed had unreadable
  · rintro (⟨needed, unreadable⟩ | ⟨realm, needed, had, unreadable⟩)
    · exact .inl ⟨_, _, needed, unreadable⟩
    · exact .inr ⟨realm, _, _, _, needed, had, unreadable⟩

/-- A scope asks for its roles exactly when it covers the request. -/
theorem validateScopeAccess_eq :
    validateScopeAccess library stringFunctions context payload request scope scope.methods =
      if covers library context request scope then
        (matchRoles library stringFunctions context payload scope).map some
      else .ok none := by
  have loop (methods : List String) :
      validateScopeAccess library stringFunctions context payload request scope methods =
        if methods.any (methodMatches library context request scope) then
          (matchRoles library stringFunctions context payload scope).map some
        else .ok none := by
    induction methods with
    | nil => rfl
    | cons method methods ih =>
        rw [validateScopeAccess, ih, List.any_cons]
        by_cases first : methodMatches library context request scope method = true
        · simp only [first, ↓reduceIte, Bool.true_or]
        · simp only [first, Bool.false_eq_true, ↓reduceIte, Bool.false_or]
  exact loop scope.methods

/-- The loop over the scopes ends at the first one that decides the request. -/
theorem scopesCheckLoop_eq (resourceMatched : Bool) (scopes : List Scope) :
    scopesCheckLoop library stringFunctions context payload request resourceMatched scopes =
      match scopes.find? (decides library stringFunctions context payload request) with
      | some scope => (matchRoles library stringFunctions context payload scope).map some
      | none =>
          .ok (if resourceMatched || scopes.any (covers library context request) then some false
            else none) := by
  induction scopes generalizing resourceMatched with
  | nil => simp [scopesCheckLoop]
  | cons scope scopes ih =>
      rw [scopesCheckLoop, validateScopeAccess_eq, List.find?_cons, List.any_cons]
      unfold decides at ih ⊢
      by_cases covered : covers library context request scope = true
      · cases roles : matchRoles library stringFunctions context payload scope with
        | error failure => simp [covered, roles, Except.bind, Except.map]
        | ok passes =>
            cases passes with
            | true => simp [covered, roles, Except.bind, Except.map]
            | false => simp [covered, Except.bind, Except.map, ih]
      · simp [covered, Except.bind, ih]

/-- A scope that decides has its roles in the token, or they cannot be read. -/
theorem decides_iff :
    decides library stringFunctions context payload request scope = true ↔
      covers library context request scope = true ∧
        (HasRoles library context payload scope ∨
          ∃ message, UnreadableScope library stringFunctions context payload scope message) := by
  have roles : matchRoles library stringFunctions context payload scope = .ok true ↔
      HasRoles library context payload scope := matchRoles_true_iff
  simp only [← matchRoles_error_iff, ← roles, decides]
  cases matchRoles library stringFunctions context payload scope with
  | error failure => simp
  | ok passes => cases passes <;> simp

end Scopes

/-! ## Decisions on well-formed tokens -/

/-- A claim with a list of roles, or without roles. -/
def RoleList (claim : Json Number) : Prop :=
  ∃ fields, claim = .object fields ∧ ∀ roles, (Json.object fields).field "roles" = some roles →
    ∃ names : List String, roles = .array (names.map .string)

/-- The claims for roles are absent or of the documented shape. -/
structure Payload.WellFormed (payload : Payload Number) : Prop where
  realm : ∀ claim, (Json.object payload).field "realm_access" = some claim → RoleList claim
  clients : ∀ clients, (Json.object payload).field "resource_access" = some clients →
    ∃ fields, clients = .object fields ∧
      ∀ client claim, (Json.object fields).field client = some claim → RoleList claim

section WellFormed

variable {library : Library (Context Number)} {stringFunctions : String → Bool}
  {context : Context Number} {payload : Payload Number} {request : Request} {scope : Scope}
  {message : String}

theorem claim_eq_some {name : String} {claim : LuaValue Number}
    (found : payload.claim name = some claim) :
    ∃ value, (Json.object payload).field name = some value ∧ claim = .json value := by
  obtain ⟨value, listed, same⟩ :=
    Option.map_eq_some_iff.mp (LuaValue.truthyField_eq_some.mp found).1
  exact ⟨value, listed, same.symm⟩

theorem RoleList.readable {claim : Json Number} (roleList : RoleList claim) :
    ¬ Unreadable stringFunctions (.json claim) message := by
  obtain ⟨fields, rfl, listed⟩ := roleList
  intro unreadable
  cases unreadable with
  | claim other => exact other trivial
  | @roles roles found other =>
      obtain ⟨value, present, same⟩ :=
        Option.map_eq_some_iff.mp (LuaValue.truthyField_eq_some.mp found).1
      obtain ⟨names, rfl⟩ := listed value present
      subst same
      exact other trivial

/-- The claims of a well-formed token can be read. -/
theorem Payload.WellFormed.readable (wellFormed : payload.WellFormed) :
    ¬ UnreadableScope library stringFunctions context payload scope message := by
  intro unreadable
  cases unreadable with
  | realm needed unreadable =>
      obtain ⟨claim, found, unreadable⟩ := unreadable
      obtain ⟨value, listed, rfl⟩ := claim_eq_some found
      exact (wellFormed.realm value listed).readable unreadable
  | client realm needed had unreadable =>
      cases unreadable with
      | clients found other =>
          obtain ⟨value, listed, rfl⟩ := claim_eq_some found
          obtain ⟨fields, rfl, _⟩ := wellFormed.clients value listed
          exact other trivial
      | client found present unreadable =>
          obtain ⟨value, listed, rfl⟩ := claim_eq_some found
          obtain ⟨fields, rfl, each⟩ := wellFormed.clients value listed
          obtain ⟨claim, own, rfl⟩ :=
            Option.map_eq_some_iff.mp (LuaValue.truthyField_eq_some.mp present).1
          exact (each _ claim own).readable unreadable

variable (library context payload request) in
/-- A scope that matches the request has all its roles in the token. -/
def Granted (scopes : List Scope) : Prop :=
  ∃ scope ∈ scopes, covers library context request scope = true ∧
    HasRoles library context payload scope

/-- What the check of the scopes gives for a well-formed token. -/
theorem scopesCheck_wellFormed (authenticated : context.jwt = some payload)
    (wellFormed : payload.WellFormed) (scopes : List Scope) :
    ∃ result, scopesCheck library stringFunctions context request scopes = .ok result ∧
      (result = some true ↔ Granted library context payload request scopes) ∧
      (result = none ↔ ∀ scope ∈ scopes, covers library context request scope = false) := by
  have decides_iff_grants (scope : Scope) :
      decides library stringFunctions context payload request scope = true ↔
        covers library context request scope = true ∧ HasRoles library context payload scope := by
    simp only [decides_iff, wellFormed.readable, exists_false, or_false]
  unfold scopesCheck
  rw [authenticated]
  dsimp only
  rw [scopesCheckLoop_eq]
  cases first : scopes.find? (decides library stringFunctions context payload request) with
  | some scope =>
      have member := List.mem_of_find?_eq_some first
      obtain ⟨covered, roles⟩ := (decides_iff_grants scope).mp (List.find?_some first)
      refine ⟨some true, ?_, iff_of_true rfl ⟨scope, member, covered, roles⟩, ?_⟩
      · simp only [matchRoles_true_iff.mpr roles, Except.map]
      · refine iff_of_false nofun fun uncovered => ?_
        rw [uncovered scope member] at covered
        cases covered
  | none =>
      have denied : ¬ Granted library context payload request scopes := by
        rintro ⟨scope, member, grants⟩
        exact List.find?_eq_none.mp first scope member ((decides_iff_grants scope).mpr grants)
      refine ⟨_, rfl, iff_of_false ?_ denied, ?_⟩
      · split <;> nofun
      · rw [Bool.false_or]
        cases covered : scopes.any (covers library context request) with
        | true =>
            obtain ⟨scope, member, own⟩ := List.any_eq_true.mp covered
            refine iff_of_false nofun fun uncovered => ?_
            rw [uncovered scope member] at own
            cases own
        | false =>
            refine iff_of_true rfl fun scope member => ?_
            exact Bool.eq_false_iff.mpr (List.any_eq_false.mp covered scope member)

end WellFormed

/-! ## The order of scopes, roles and methods -/

/-- The scopes differ in the order of their roles and methods only. -/
structure ScopeConfig.Alike (scope other : ScopeConfig) : Prop where
  realmRoles : Option.Rel List.Perm scope.realmRoles other.realmRoles
  clientRoles : Option.Rel List.Perm scope.clientRoles other.clientRoles
  resource : scope.resource = other.resource
  resourceType : scope.resourceType = other.resourceType
  methods : Option.Rel List.Perm scope.methods other.methods

/-- The configurations differ in the order of scopes, roles and methods only. -/
structure RoleCheckConfig.Alike (config other : RoleCheckConfig) : Prop where
  type : config.type = other.type
  whitelistDenyUnmatched : config.whitelistDenyUnmatched = other.whitelistDenyUnmatched
  scopes : ∃ scopes, (config.scopes.getD []).Perm scopes ∧
    List.Forall₂ ScopeConfig.Alike scopes (other.scopes.getD [])

section Alike

variable {library : Library (Context Number)} {stringFunctions : String → Bool}
  {context : Context Number} {payload : Payload Number} {request : Request}
  {scope other : ScopeConfig}

theorem scopeMethods_perm {methods others : Option (List String)}
    (perm : Option.Rel List.Perm methods others) :
    (scopeMethods methods).Perm (scopeMethods others) := by
  cases perm with
  | none => exact .refl _
  | @some methods others perm =>
      cases methods with
      | nil =>
          obtain rfl := List.nil_perm.mp perm
          exact .refl _
      | cons method rest =>
          cases others with
          | nil => cases perm.eq_nil
          | cons second others => exact perm

/-- Scopes that are alike cover the same requests. -/
theorem ScopeConfig.Alike.covers (alike : scope.Alike other) :
    covers library context request (buildScope scope) =
      KeycloakRoleCheck.covers library context request (buildScope other) := by
  have resource : (buildScope scope).resource = (buildScope other).resource := by
    unfold buildScope
    rw [alike.resource, alike.resourceType]
  unfold KeycloakRoleCheck.covers methodMatches
  rw [resource]
  exact (scopeMethods_perm alike.methods).any_eq

/-- Lists of the same roles need the same of a token. -/
theorem forall_roles_iff {Role Built : Type*} {roles others : Option (List Role)}
    (build : Role → Built) (holds : Built → Prop) (perm : Option.Rel List.Perm roles others) :
    (∀ built ∈ roles.map (List.map build), ∀ role ∈ built, holds role) ↔
      ∀ built ∈ others.map (List.map build), ∀ role ∈ built, holds role := by
  cases perm with
  | none => rfl
  | some perm => simp only [Option.map_some, Option.mem_some_iff, forall_eq', List.forall_mem_map,
      perm.mem_iff]

/-- They also ask for the same roles. -/
theorem ScopeConfig.Alike.hasRoles (alike : scope.Alike other) :
    HasRoles library context payload (buildScope scope) ↔
      HasRoles library context payload (buildScope other) :=
  and_congr (forall_roles_iff _ _ alike.realmRoles) (forall_roles_iff _ _ alike.clientRoles)

/-- What holds of a scope whatever the order holds of some scope, or of all, whatever the order. -/
theorem RoleCheckConfig.Alike.exists_iff {config others : RoleCheckConfig}
    (alike : config.Alike others) {holds : Scope → Prop}
    (same : ∀ scope other : ScopeConfig, scope.Alike other →
      (holds (buildScope scope) ↔ holds (buildScope other))) :
    (∃ scope ∈ (new config).scopes, holds scope) ↔ ∃ scope ∈ (new others).scopes, holds scope := by
  obtain ⟨scopes, perm, each⟩ := alike.scopes
  have reordered : (∃ scope ∈ config.scopes.getD [], holds (buildScope scope)) ↔
      ∃ scope ∈ scopes, holds (buildScope scope) := by
    simp only [perm.mem_iff]
  have pairs {first second : List ScopeConfig}
      (each : List.Forall₂ ScopeConfig.Alike first second) :
      (∃ scope ∈ first, holds (buildScope scope)) ↔
        ∃ scope ∈ second, holds (buildScope scope) := by
    induction each with
    | nil => rfl
    | cons own _ ih => rw [List.exists_mem_cons_iff, List.exists_mem_cons_iff, same _ _ own, ih]
  unfold new
  simp only [List.mem_map, exists_exists_and_eq_and]
  exact reordered.trans (pairs each)

end Alike

/-! ## The decision -/

section Decision

variable {library : Library (Context Number)} {stringFunctions : String → Bool}
  {context : Context Number} {request : Request}

theorem returned_ne_authorizationFailed : Outcome.returned ≠ authorizationFailed context := by
  unfold authorizationFailed
  split <;> nofun

variable (library stringFunctions request) in
/-- The check of a well-formed token ends with a result, which says whether it is granted a scope
that covers the request and whether there is one. -/
theorem scopesCheck_result (wellFormed : ∀ payload ∈ context.jwt, Payload.WellFormed payload)
    (scopes : List Scope) :
    ∃ result, scopesCheck library stringFunctions context request scopes = .ok result ∧
      (result = some true ↔
        ∃ payload ∈ context.jwt, Granted library context payload request scopes) ∧
      (result = none ↔ context.jwt.isSome = true ∧
        ∀ scope ∈ scopes, covers library context request scope = false) := by
  cases authenticated : context.jwt with
  | none =>
      refine ⟨some false, ?_, ?_, ?_⟩
      · unfold scopesCheck
        rw [authenticated]
      · simp
      · simp
  | some payload =>
      obtain ⟨result, checked, granted, uncovered⟩ :=
        scopesCheck_wellFormed authenticated (wellFormed payload authenticated) scopes
      refine ⟨result, checked, ?_, ?_⟩
      · simpa only [Option.mem_some_iff, exists_eq_left'] using granted
      · simpa only [Option.isSome_some, true_and] using uncovered

theorem eq_of_true_iff_of_none_iff {result other : Option Bool}
    (passes : result = some true ↔ other = some true) (missing : result = none ↔ other = none) :
    result = other := by
  cases result with
  | none => exact (missing.mp rfl).symm
  | some passed =>
      cases passed with
      | true => exact (passes.mp rfl).symm
      | false =>
          cases other with
          | none => cases missing.mpr rfl
          | some passed =>
              cases passed with
              | true => cases passes.mpr rfl
              | false => rfl

/-- The order of scopes, roles and methods does not matter to the check of the scopes. -/
theorem RoleCheckConfig.Alike.scopesCheck_eq {config others : RoleCheckConfig}
    (alike : config.Alike others)
    (wellFormed : ∀ payload ∈ context.jwt, Payload.WellFormed payload) :
    scopesCheck library stringFunctions context request (new config).scopes =
      scopesCheck library stringFunctions context request (new others).scopes := by
  obtain ⟨result, checked, granted, unmatched⟩ :=
    scopesCheck_result library stringFunctions request wellFormed (new config).scopes
  obtain ⟨other, otherChecked, otherGranted, otherUnmatched⟩ :=
    scopesCheck_result library stringFunctions request wellFormed (new others).scopes
  have grants : result = some true ↔ other = some true := by
    rw [granted, otherGranted]
    refine exists_congr fun payload => and_congr_right fun _ => ?_
    exact alike.exists_iff fun _ _ same => and_congr (by rw [same.covers]) same.hasRoles
  have covering : result = none ↔ other = none := by
    have some_covers :
        (∃ scope ∈ (new config).scopes, covers library context request scope = true) ↔
          ∃ scope ∈ (new others).scopes, covers library context request scope = true :=
      alike.exists_iff fun _ _ same => by rw [same.covers]
    rw [unmatched, otherUnmatched]
    refine and_congr_right fun _ => ?_
    simpa only [not_exists, not_and, Bool.not_eq_true] using not_congr some_covers
  rw [checked, otherChecked, eq_of_true_iff_of_none_iff grants covering]

/-- The decision on what the check of the scopes gives. -/
theorem access_of_result {self : RoleCheck} {result : Option Bool}
    (checked : scopesCheck library stringFunctions context request self.scopes = .ok result) :
    access library stringFunctions self request context =
      match self.type with
      | .whitelist =>
          if result = some false then authorizationFailed context
          else if result = none ∧ self.whitelistDenyUnmatched = true then
            authorizationFailed context
          else .returned
      | .blacklist => if result = some true then authorizationFailed context else .returned := by
  unfold access
  generalize scopesCheck library stringFunctions context request self.scopes = decision at checked
  subst checked
  rfl

/-- The role check decides every request with a well-formed token or without one. A whitelist
admits it when there is a token, and a scope that matches the request has its roles in the token or
no scope matches and this is no reason to deny it. A blacklist rejects it when there is a token and
a scope that matches the request has its roles in the token. The order of scopes, roles and methods
does not matter. -/
theorem access_decides (config : RoleCheckConfig) (library : Library (Context Number))
    (stringFunctions : String → Bool) (request : Request) (context : Context Number)
    (wellFormed : ∀ payload ∈ context.jwt, Payload.WellFormed payload) :
    (access library stringFunctions (new config) request context = .returned ∨
      access library stringFunctions (new config) request context =
        authorizationFailed context) ∧
    ((new config).type = .whitelist →
      (access library stringFunctions (new config) request context = .returned ↔
        (∃ payload ∈ context.jwt, Granted library context payload request (new config).scopes) ∨
          context.jwt.isSome = true ∧
            (∀ scope ∈ (new config).scopes, covers library context request scope = false) ∧
            (new config).whitelistDenyUnmatched = false)) ∧
    ((new config).type = .blacklist →
      (access library stringFunctions (new config) request context =
          authorizationFailed context ↔
        ∃ payload ∈ context.jwt, Granted library context payload request (new config).scopes)) ∧
    ∀ others, config.Alike others →
      access library stringFunctions (new config) request context =
        access library stringFunctions (new others) request context := by
  have different : Outcome.returned ≠ authorizationFailed context :=
    returned_ne_authorizationFailed
  obtain ⟨result, checked, granted, unmatched⟩ :=
    scopesCheck_result library stringFunctions request wellFormed (new config).scopes
  have decided := access_of_result checked
  refine ⟨?_, ?_, ?_, ?_⟩
  · rw [decided]
    cases (new config).type with
    | whitelist =>
        dsimp only
        split
        · exact .inr rfl
        · split
          · exact .inr rfl
          · exact .inl rfl
    | blacklist =>
        dsimp only
        split
        · exact .inr rfl
        · exact .inl rfl
  · intro whitelist
    rw [decided, whitelist, ← granted, ← and_assoc, ← unmatched]
    cases result with
    | none =>
        cases (new config).whitelistDenyUnmatched <;> simp [different.symm]
    | some passes => cases passes <;> simp [different.symm]
  · intro blacklist
    rw [decided, blacklist, ← granted]
    cases result with
    | none => simp [different]
    | some passes => cases passes <;> simp [different]
  · intro others alike
    unfold access
    rw [alike.scopesCheck_eq wellFormed]
    unfold new
    dsimp only
    rw [alike.type, alike.whitelistDenyUnmatched]

end Decision

section Examples

/-- A library whose regular expressions are prefixes. -/
def prefixLibrary : Library (Context Int) where
  liquid := fun _ => none
  isMatch := fun subject expression => expression.toList.tail.isPrefixOf subject.toList
  gsub := fun subject _ _ => subject
  escapeUri := id

/-- The role `admin` of the realm is needed for `/admin`. -/
def adminConfig : RoleCheckConfig where
  type := none
  whitelistDenyUnmatched := none
  scopes := some [⟨some [⟨"admin", none⟩], none, "/admin", none, none⟩]

/-- A request with this claim in its token. -/
def tokenContext (claim : Json Int) : Context Int :=
  ⟨some [("realm_access", claim)], some ⟨403, "Authentication failed"⟩, none⟩

def adminRequest : Request := ⟨"/admin", "GET"⟩

/-- A token with the role is admitted. -/
theorem access_decides_admin :
    access prefixLibrary (fun _ => false) (new adminConfig) adminRequest
      (tokenContext (.object [("roles", .array [.string "admin"])])) = .returned := by
  refine ((access_decides adminConfig prefixLibrary (fun _ => false) adminRequest
    (tokenContext (.object [("roles", .array [.string "admin"])])) ?_).2.1 rfl).mpr (.inl ?_)
  · intro payload present
    cases present
    refine ⟨?_, nofun⟩
    intro claim found
    cases found
    refine ⟨_, rfl, ?_⟩
    intro roles listed
    cases listed
    exact ⟨["admin"], rfl⟩
  · refine ⟨_, rfl, _, List.mem_cons_self, by decide, ?_, nofun⟩
    intro roles needed role member
    cases needed
    obtain rfl := List.mem_singleton.mp member
    exact ⟨_, rfl, _, _, rfl, rfl, List.mem_cons_self⟩

end Examples

end Apicast.KeycloakRoleCheck
