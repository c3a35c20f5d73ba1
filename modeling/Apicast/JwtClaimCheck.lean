import Apicast.Conditions
import Apicast.Foundation.TableLoop
import Apicast.PolicyChain
import Mathlib.Algebra.Order.BigOperators.Group.List
import Mathlib.Algebra.Order.Group.Nat
import Mathlib.Algebra.Ring.Nat

/-!
# The JWT claim check

`policy/jwt_claim_check/jwt_claim_check.lua`. The constructor writes the claims that it turns
into Liquid back into the configuration, so that the next call on the same table starts from
them. The configuration is state that is passed on from call to call.
-/

namespace Apicast.JwtClaimCheck

open Foundation

structure ClaimOperation where
  jwtClaim : String
  jwtClaimType : Option TemplateType
  op : String
  value : String
  valueType : Option TemplateType
  deriving DecidableEq, Repr

structure ClaimRule where
  combineOp : Option String
  methods : Option (List String)
  resource : String
  resourceType : Option TemplateType
  operations : Option (List ClaimOperation)
  deriving DecidableEq, Repr

structure JwtClaimConfig where
  errorMessage : Option String
  enableExtendedContext : Bool
  rules : Option (List ClaimRule)
  deriving DecidableEq, Repr

/-- A rule of the policy; its condition is none when there is nothing to evaluate. -/
structure PolicyRule where
  condition : Option Condition
  methods : List String
  resource : String
  resourceType : TemplateType
  deriving DecidableEq, Repr

structure JwtClaimPolicy where
  errorMessage : String
  enableExtendedContext : Bool
  rules : List PolicyRule
  deriving DecidableEq, Repr

def defaultErrorMessage : String := "Request blocked due to JWT claim policy"

def defaultTemplateType : TemplateType := .plain

/-- `MappingRule.any_method` -/
def anyMethod : String := "ANY"

def defaultAllowedMethods : List String := [anyMethod]

/-- What `ipairs` raises when a list is missing. -/
def missingTable : String := "bad argument #1 to 'ipairs' (table expected, got nil)"

section New

/-- The operations of `operation.lua`. -/
def operationType (op : String) : Option OperationType :=
  if op = "==" then some .equal
  else if op = "!=" then some .notEqual
  else if op = "matches" then some .isMatch
  else none

/-- `Operation.new` -/
def operationNew (condition : ClaimOperation) : Except String Operation :=
  match operationType condition.op with
  | some op => .ok ⟨condition.jwtClaim, some .liquid, op, condition.value,
      some (condition.valueType.getD defaultTemplateType)⟩
  | none => .error "Unsupported operation"

/-- `Condition.new`; there is a function for `true` as well. -/
def conditionNew (operations : List Operation) (combineOp : Option String) :
    Except String (Option Condition) :=
  if combineOp.getD "and" = "and" then .ok (some ⟨operations, some .and⟩)
  else if combineOp = some "or" then .ok (some ⟨operations, some .or⟩)
  else if combineOp = some "true" then .ok none
  else .error "Unsupported combine op"

/-- A claim rendered as Liquid. -/
def wrapClaim (enableExtendedContext : Bool) (jwtClaim : String) : String :=
  "\x7b\x7b" ++ (if enableExtendedContext then "jwt." ++ jwtClaim else jwtClaim) ++ "\x7d\x7d"

/-- What the constructor writes into an operation. -/
def wrapOperation (enableExtendedContext : Bool) (condition : ClaimOperation) : ClaimOperation :=
  if condition.jwtClaimType = some .plain then
    { condition with jwtClaim := wrapClaim enableExtendedContext condition.jwtClaim }
  else condition

/-- One round of the inner loop. -/
def buildOperation (enableExtendedContext : Bool) (condition : ClaimOperation) :
    ClaimOperation × Except String Operation :=
  let condition := wrapOperation enableExtendedContext condition
  (condition, operationNew condition)

/-- The rule of the policy, once its operations are built. -/
def ruleNew (rule : ClaimRule) (conditions : List Operation) : Except String PolicyRule :=
  (conditionNew conditions rule.combineOp).map fun condition =>
    { condition
      methods := rule.methods.getD defaultAllowedMethods
      resource := rule.resource
      resourceType := rule.resourceType.getD defaultTemplateType }

/-- One round of the outer loop. -/
def buildRule (enableExtendedContext : Bool) (rule : ClaimRule) :
    ClaimRule × Except String PolicyRule :=
  match rule.operations with
  | none => (rule, .error missingTable)
  | some operations =>
      let (operations, conditions) := TableLoop.forEach (buildOperation enableExtendedContext)
        operations
      ({ rule with operations := some operations }, conditions.bind (ruleNew rule))

/-- `_M.new`: the configuration afterwards, and the policy or what was raised. -/
def new (config : JwtClaimConfig) : JwtClaimConfig × Except String JwtClaimPolicy :=
  match config.rules with
  | none => (config, .error missingTable)
  | some rules =>
      let (rules, built) := TableLoop.forEach (buildRule config.enableExtendedContext) rules
      ({ config with rules := some rules },
        built.map fun rules =>
          { errorMessage := config.errorMessage.getD defaultErrorMessage
            enableExtendedContext := config.enableExtendedContext
            rules })

/-- The configuration after some calls of `new` on the same table. -/
def afterCalls (config : JwtClaimConfig) : Nat → JwtClaimConfig
  | 0 => config
  | calls + 1 => (new (afterCalls config calls)).1

/-- What the n-th call of `new` on the same table makes, the first of which has number 1. -/
def nthPolicy (config : JwtClaimConfig) (n : Nat) : Except String JwtClaimPolicy :=
  (new (afterCalls config (n - 1))).2

end New

section Access

variable {Context : Type*}

/-- What a check uses of the libraries of the web server. -/
structure Library (Context : Type*) extends TemplateEngine Context where
  /-- `ngx.re.gsub` of a subject, a regular expression and a replacement. -/
  gsub : String → String → String → String
  /-- `escape.escape_uri` -/
  escapeUri : String → String

structure Request (Context : Type*) where
  context : Context
  /-- `context.jwt` -/
  jwt : Context
  uri : String
  method : String

variable (library : Library Context)

/-- `mapping_rule.lua`, `regexpify` -/
def regexpify (pattern : String) : String :=
  let pattern := library.gsub pattern "\\/\\/+" "/"
  let pattern := library.gsub pattern "\\?.*" ""
  let pattern := library.gsub pattern "\\\x7b.+?\\\x7d" "([\\w\\-.~%!$$&'()*+,;=@:]+)"
  library.gsub pattern "\\." "\\."

/-- `MappingRule.from_proxy_rule` followed by `matches`, without parameters of the query. -/
def mappingRuleMatches (httpMethod pattern method uri : String) : Bool :=
  (decide (httpMethod = anyMethod) || decide (httpMethod = method)) &&
    library.isMatch uri ("^" ++ regexpify library pattern)

/-- `_M:evaluate` of the condition of a rule. -/
def evaluateCondition (condition : Option Condition) (context : Context) : Bool :=
  condition.all (·.evaluate library.toTemplateEngine context)

/-- `is_rule_denied_request` -/
def isRuleDeniedRequest (rule : PolicyRule) (request : Request Context)
    (enableExtendedContext : Bool) : Bool :=
  let escapedUri := library.escapeUri request.uri
  let resource := TemplateString.render library.toTemplateEngine rule.resource rule.resourceType
    request.context
  let mappingRuleMatch := rule.methods.any fun method =>
    mappingRuleMatches library method resource request.method escapedUri
  if !mappingRuleMatch then false
  else if enableExtendedContext then !evaluateCondition library rule.condition request.context
  else !evaluateCondition library rule.condition request.jwt

/-- `_M:access` -/
def access (self : JwtClaimPolicy) (request : Request Context) : Outcome :=
  if self.rules.any fun rule =>
      isRuleDeniedRequest library rule request self.enableExtendedContext then
    .exited ⟨403, some self.errorMessage⟩
  else .returned

/-- A policy that could not be built is not part of the chain. -/
def decideRequest (built : Except String JwtClaimPolicy) (request : Request Context) : Outcome :=
  match built with
  | .ok policy => access library policy request
  | .error _ => .returned

end Access

section Again

variable {enableExtendedContext : Bool}

theorem wrapOperation_of_ne {condition : ClaimOperation}
    (other : condition.jwtClaimType ≠ some .plain) :
    wrapOperation enableExtendedContext condition = condition :=
  if_neg other

@[simp] theorem wrapOperation_jwtClaimType (condition : ClaimOperation) :
    (wrapOperation enableExtendedContext condition).jwtClaimType = condition.jwtClaimType := by
  unfold wrapOperation
  split <;> rfl

@[simp] theorem wrapOperation_op (condition : ClaimOperation) :
    (wrapOperation enableExtendedContext condition).op = condition.op := by
  unfold wrapOperation
  split <;> rfl

/-- Whether an operation can be built depends on its operator alone. -/
theorem map_operationNew {first second : ClaimOperation} (same : first.op = second.op) :
    (operationNew first).map (fun _ => ()) = (operationNew second).map fun _ => () := by
  unfold operationNew
  rw [same]
  cases operationType second.op <;> rfl

/-- An operation that is built again fails exactly as it did before. -/
theorem map_buildOperation_buildOperation (condition : ClaimOperation) :
    (buildOperation enableExtendedContext
        (buildOperation enableExtendedContext condition).1).2.map (fun _ => ()) =
      (buildOperation enableExtendedContext condition).2.map fun _ => () := by
  apply map_operationNew
  rw [wrapOperation_op]
  rfl

/-- Whether a rule can be built does not depend on its operations. -/
theorem map_ruleNew {rule other : ClaimRule} (same : rule.combineOp = other.combineOp)
    (conditions others : List Operation) :
    (ruleNew rule conditions).map (fun _ => ()) = (ruleNew other others).map fun _ => () := by
  unfold ruleNew conditionNew
  rw [same]
  split
  · rfl
  · split
    · rfl
    · split <;> rfl

theorem buildRule_none {rule : ClaimRule} (missing : rule.operations = none) :
    buildRule enableExtendedContext rule = (rule, .error missingTable) := by
  unfold buildRule
  rw [missing]

theorem buildRule_some {rule : ClaimRule} {operations : List ClaimOperation}
    (present : rule.operations = some operations) :
    buildRule enableExtendedContext rule =
      ({ rule with operations := some (TableLoop.forEach (buildOperation enableExtendedContext)
          operations).1 },
        (TableLoop.forEach (buildOperation enableExtendedContext) operations).2.bind
          (ruleNew rule)) := by
  unfold buildRule
  rw [present]

/-- A rule that is built again is built alike, as far as this depends on what its operations
have in common. -/
theorem buildRule_buildRule {Shared Result : Type*} {rule : ClaimRule}
    {operations : List ClaimOperation} {holds : ClaimOperation → Prop}
    (present : rule.operations = some operations) (convert : Operation → Shared)
    (finish : PolicyRule → Result) (all : ∀ condition ∈ operations, holds condition)
    (same : ∀ condition, holds condition →
      (buildOperation enableExtendedContext
        (buildOperation enableExtendedContext condition).1).2.map convert =
          (buildOperation enableExtendedContext condition).2.map convert)
    (shared : ∀ conditions others : List Operation, conditions.map convert = others.map convert →
      (ruleNew rule conditions).map finish = (ruleNew rule others).map finish) :
    (buildRule enableExtendedContext (buildRule enableExtendedContext rule).1).2.map finish =
      (buildRule enableExtendedContext rule).2.map finish := by
  rw [buildRule_some present, buildRule_some rfl]
  dsimp only
  rw [TableLoop.map_bind, TableLoop.map_bind]
  exact TableLoop.bind_eq_bind (List.map convert)
    (TableLoop.forEach_forEach convert same all) shared

/-- A rule that is built again fails exactly as it did before. -/
theorem map_buildRule_buildRule (rule : ClaimRule) :
    (buildRule enableExtendedContext (buildRule enableExtendedContext rule).1).2.map (fun _ => ()) =
      (buildRule enableExtendedContext rule).2.map fun _ => () := by
  cases present : rule.operations with
  | none => rw [buildRule_none present, buildRule_none present]
  | some operations =>
      refine buildRule_buildRule present (fun _ => ()) _ (fun _ _ => trivial)
        (fun condition _ => map_buildOperation_buildOperation condition) ?_
      exact fun conditions others _ => map_ruleNew rfl conditions others

/-- No operation that the rule evaluates has a claim that is written back. -/
def NothingWrapped (rule : ClaimRule) : Prop :=
  rule.combineOp = some "true" ∨ ∀ operations ∈ rule.operations, ∀ condition ∈ operations,
    condition.jwtClaimType ≠ some .plain

theorem buildRule_combineOp (rule : ClaimRule) :
    (buildRule enableExtendedContext rule).1.combineOp = rule.combineOp := by
  cases present : rule.operations with
  | none => rw [buildRule_none present]
  | some operations => rw [buildRule_some present]

theorem NothingWrapped.kept {rule : ClaimRule} (nothing : NothingWrapped rule) :
    NothingWrapped (buildRule enableExtendedContext rule).1 := by
  rcases nothing with always | unwrapped
  · exact Or.inl ((buildRule_combineOp rule).trans always)
  · refine Or.inr ?_
    cases present : rule.operations with
    | none =>
        rw [buildRule_none present]
        exact unwrapped
    | some operations =>
        rw [buildRule_some present]
        intro written member
        cases member
        have kept (condition : ClaimOperation) (other : condition.jwtClaimType ≠ some .plain) :
            (buildOperation enableExtendedContext condition).1.jwtClaimType ≠ some .plain := by
          change (wrapOperation enableExtendedContext condition).jwtClaimType ≠ some .plain
          rwa [wrapOperation_jwtClaimType]
        exact TableLoop.forall_mem_forEach kept (unwrapped operations present)

/-- A rule without such an operation is built again as it was before. -/
theorem NothingWrapped.same {rule : ClaimRule} (nothing : NothingWrapped rule) :
    (buildRule enableExtendedContext (buildRule enableExtendedContext rule).1).2 =
      (buildRule enableExtendedContext rule).2 := by
  rw [← TableLoop.map_id (buildRule enableExtendedContext rule).2,
    ← TableLoop.map_id (buildRule enableExtendedContext _).2]
  cases present : rule.operations with
  | none => rw [buildRule_none present, buildRule_none present]
  | some operations =>
      rcases nothing with always | unwrapped
      · refine buildRule_buildRule present (fun _ => ()) _ (fun _ _ => trivial)
          (fun condition _ => map_buildOperation_buildOperation condition) ?_
        intro conditions others _
        unfold ruleNew conditionNew
        rw [always]
        rfl
      · refine buildRule_buildRule present id _ (unwrapped operations present) ?_ ?_
        · intro condition other
          have same : wrapOperation enableExtendedContext condition = condition :=
            wrapOperation_of_ne other
          unfold buildOperation
          dsimp only
          rw [same, same]
        · intro conditions others equal
          rw [List.map_id, List.map_id] at equal
          rw [equal]

end Again

section Buildable

variable {enableExtendedContext : Bool}

/-- A rule with a list of operations, in which all operators and the combination are known. -/
def BuildableRule (rule : ClaimRule) : Prop :=
  ∃ operations, rule.operations = some operations ∧
    (∀ condition ∈ operations, (operationType condition.op).isSome) ∧
      rule.combineOp ∈ [none, some "and", some "or", some "true"]

/-- A configuration with a list of such rules. -/
def Buildable (config : JwtClaimConfig) : Prop :=
  ∃ rules, config.rules = some rules ∧ ∀ rule ∈ rules, BuildableRule rule

theorem buildOperation_ok_iff {condition : ClaimOperation} :
    (∃ operation, (buildOperation enableExtendedContext condition).2 = .ok operation) ↔
      (operationType condition.op).isSome := by
  change (∃ operation, operationNew (wrapOperation enableExtendedContext condition) =
    .ok operation) ↔ _
  unfold operationNew
  rw [wrapOperation_op]
  cases operationType condition.op with
  | none => exact iff_of_false (fun made => made.elim nofun) nofun
  | some op => exact iff_of_true ⟨_, rfl⟩ rfl

theorem ruleNew_ok_iff {rule : ClaimRule} (conditions : List Operation) :
    (∃ built, ruleNew rule conditions = .ok built) ↔
      rule.combineOp ∈ [none, some "and", some "or", some "true"] := by
  unfold ruleNew conditionNew
  cases combined : rule.combineOp with
  | none => exact iff_of_true ⟨_, rfl⟩ List.mem_cons_self
  | some combineOp =>
      simp only [Option.getD_some, Option.some.injEq, List.mem_cons, reduceCtorEq, false_or,
        List.not_mem_nil, or_false]
      by_cases all : combineOp = "and"
      · rw [if_pos all]
        exact iff_of_true ⟨_, rfl⟩ (.inl all)
      · rw [if_neg all]
        by_cases any : combineOp = "or"
        · rw [if_pos any]
          exact iff_of_true ⟨_, rfl⟩ (.inr (.inl any))
        · rw [if_neg any]
          by_cases always : combineOp = "true"
          · rw [if_pos always]
            exact iff_of_true ⟨_, rfl⟩ (.inr (.inr always))
          · rw [if_neg always]
            exact iff_of_false (fun made => made.elim nofun) (by simp only [all, any, always,
              or_self, not_false_eq_true])

theorem buildRule_ok_iff {rule : ClaimRule} :
    (∃ built, (buildRule enableExtendedContext rule).2 = .ok built) ↔ BuildableRule rule := by
  unfold BuildableRule
  cases present : rule.operations with
  | none =>
      rw [buildRule_none present]
      exact iff_of_false (fun made => made.elim nofun) (fun buildable => by
        obtain ⟨operations, missing, _⟩ := buildable
        cases missing)
  | some operations =>
      rw [buildRule_some present]
      simp only [Option.some.injEq, exists_eq_left']
      have rounds := @TableLoop.forEach_ok_iff _ _ _ (buildOperation enableExtendedContext)
        operations
      simp only [buildOperation_ok_iff] at rounds
      rw [← rounds]
      cases (TableLoop.forEach (buildOperation enableExtendedContext) operations).2 with
      | error error =>
          exact iff_of_false (fun made => made.elim nofun) fun both => both.1.elim nofun
      | ok conditions =>
          exact (ruleNew_ok_iff conditions).trans (iff_and_self.mpr fun _ => ⟨_, rfl⟩)

/-- The constructor builds a policy from the buildable configurations. -/
theorem new_ok_iff {config : JwtClaimConfig} :
    (∃ policy, (new config).2 = .ok policy) ↔ Buildable config := by
  unfold Buildable new
  cases config.rules with
  | none =>
      exact iff_of_false (fun made => made.elim nofun) (fun buildable => by
        obtain ⟨rules, missing, _⟩ := buildable
        cases missing)
  | some rules =>
      have rounds := @TableLoop.forEach_ok_iff _ _ _ (buildRule config.enableExtendedContext)
        rules
      simp only [buildRule_ok_iff] at rounds
      simp only [Option.some.injEq, exists_eq_left']
      rw [← rounds]
      cases (TableLoop.forEach (buildRule config.enableExtendedContext) rules).2 with
      | error error => exact iff_of_false (fun made => made.elim nofun) fun completed =>
          completed.elim nofun
      | ok built => exact iff_of_true ⟨_, rfl⟩ ⟨_, rfl⟩

end Buildable

section Calls

variable {config : JwtClaimConfig}

theorem new_none (missing : config.rules = none) : new config = (config, .error missingTable) := by
  unfold new
  rw [missing]

theorem new_some {rules : List ClaimRule} (present : config.rules = some rules) :
    new config =
      ({ config with rules := some (TableLoop.forEach (buildRule config.enableExtendedContext)
          rules).1 },
        (TableLoop.forEach (buildRule config.enableExtendedContext) rules).2.map fun rules =>
          ⟨config.errorMessage.getD defaultErrorMessage, config.enableExtendedContext, rules⟩) := by
  unfold new
  rw [present]

/-- A second call fails exactly as the first one did. -/
theorem map_new_new (config : JwtClaimConfig) :
    (new (new config).1).2.map (fun _ => ()) = (new config).2.map fun _ => () := by
  cases present : config.rules with
  | none => rw [new_none present, new_none present]
  | some rules =>
      rw [new_some present, new_some rfl]
      dsimp only
      rw [TableLoop.map_map, TableLoop.map_map]
      exact TableLoop.map_eq_map _ (TableLoop.forEach_forEach (fun _ => ())
        (fun rule _ => map_buildRule_buildRule rule) (fun _ _ => trivial)) fun _ _ _ => rfl

/-- No operation that the policy evaluates has a claim that is written back. -/
def NothingWrittenBack (config : JwtClaimConfig) : Prop :=
  ∀ rules ∈ config.rules, ∀ rule ∈ rules, NothingWrapped rule

theorem NothingWrittenBack.kept (nothing : NothingWrittenBack config) :
    NothingWrittenBack (new config).1 := by
  cases present : config.rules with
  | none =>
      rw [new_none present]
      exact nothing
  | some rules =>
      rw [new_some present]
      intro written member
      cases member
      exact TableLoop.forall_mem_forEach (fun rule => NothingWrapped.kept)
        (nothing rules present)

/-- A second call builds the same policy when nothing that matters is written back. -/
theorem NothingWrittenBack.same (nothing : NothingWrittenBack config) :
    (new (new config).1).2 = (new config).2 := by
  cases present : config.rules with
  | none => rw [new_none present, new_none present]
  | some rules =>
      rw [new_some present, new_some rfl]
      have same (rule : ClaimRule) (harmless : NothingWrapped rule) :
          (buildRule config.enableExtendedContext
            (buildRule config.enableExtendedContext rule).1).2.map id =
              (buildRule config.enableExtendedContext rule).2.map id :=
        congrArg _ harmless.same
      have again := TableLoop.forEach_forEach id same (nothing rules present)
      rw [List.map_id_fun, TableLoop.map_id, TableLoop.map_id] at again
      dsimp only
      rw [again]

/-- Every call fails exactly as the first one does. -/
theorem map_afterCalls (config : JwtClaimConfig) (calls : Nat) :
    (new (afterCalls config calls)).2.map (fun _ => ()) = (new config).2.map fun _ => () := by
  induction calls with
  | zero => rfl
  | succ calls ih => exact (map_new_new _).trans ih

theorem nthPolicy_of_error {error : String} (failed : (new config).2 = .error error) (n : Nat) :
    nthPolicy config n = .error error := by
  have same := map_afterCalls config (n - 1)
  rw [failed] at same
  exact TableLoop.eq_error_of_map same

/-- When nothing that matters is written back, every call builds the same policy. -/
theorem NothingWrittenBack.afterCalls (nothing : NothingWrittenBack config) (calls : Nat) :
    NothingWrittenBack (afterCalls config calls) ∧
      (new (JwtClaimCheck.afterCalls config calls)).2 = (new config).2 := by
  induction calls with
  | zero => exact ⟨nothing, rfl⟩
  | succ calls ih =>
      obtain ⟨before, equal⟩ := ih
      exact ⟨before.kept, before.same.trans equal⟩

/-- The n-th call is the first one, no policy can be built from the table, or nothing that
matters is written back. -/
def Unaffected (config : JwtClaimConfig) (n : Nat) : Prop :=
  n = 1 ∨ ¬ Buildable config ∨ NothingWrittenBack config

theorem Unaffected.nthPolicy_eq {n : Nat} (unaffected : Unaffected config n) :
    nthPolicy config n = (new config).2 := by
  rcases unaffected with rfl | unbuildable | nothing
  · rfl
  · cases failed : (new config).2 with
    | error error => exact nthPolicy_of_error failed n
    | ok policy => exact absurd (new_ok_iff.mp ⟨policy, failed⟩) unbuildable
  · exact (nothing.afterCalls (n - 1)).2

end Calls

section Lengths

variable {enableExtendedContext : Bool}

/-- The length of the claims that the operations of a rule are evaluated with. -/
def ruleLength (rule : ClaimRule) : Nat :=
  if rule.combineOp = some "true" then 0
  else ((rule.operations.getD []).map fun condition => condition.jwtClaim.length).sum

def configLength (config : JwtClaimConfig) : Nat :=
  ((config.rules.getD []).map ruleLength).sum

def policyRuleLength (rule : PolicyRule) : Nat :=
  (rule.condition.map fun condition =>
    (condition.operations.map fun operation => operation.left.length).sum).getD 0

def policyLength (policy : JwtClaimPolicy) : Nat := (policy.rules.map policyRuleLength).sum

theorem left_of_operationNew {condition : ClaimOperation} {operation : Operation}
    (built : operationNew condition = .ok operation) : operation.left = condition.jwtClaim := by
  unfold operationNew at built
  split at built
  · cases built
    rfl
  · cases built

/-- The claims get longer where they are written back. -/
theorem length_wrapOperation (condition : ClaimOperation) :
    condition.jwtClaim.length ≤ (wrapOperation enableExtendedContext condition).jwtClaim.length ∧
      (condition.jwtClaimType = some .plain → condition.jwtClaim.length <
        (wrapOperation enableExtendedContext condition).jwtClaim.length) := by
  have longer : condition.jwtClaim.length <
      (wrapClaim enableExtendedContext condition.jwtClaim).length := by
    unfold wrapClaim
    rw [String.length_append, String.length_append]
    have braces : "\x7b\x7b".length = 2 := rfl
    split
    · rw [String.length_append, braces]
      omega
    · rw [braces]
      omega
  unfold wrapOperation
  split
  · exact ⟨Nat.le_of_lt longer, fun _ => longer⟩
  · rename_i other
    exact ⟨Nat.le_refl _, fun plain => absurd plain other⟩

/-- The operations that a rule of the policy evaluates are those of the table. -/
theorem policyRuleLength_ruleNew {rule : ClaimRule} {conditions : List Operation}
    {built : PolicyRule} (made : ruleNew rule conditions = .ok built) :
    policyRuleLength built = if rule.combineOp = some "true" then 0
      else (conditions.map fun operation => operation.left.length).sum := by
  unfold ruleNew conditionNew at made
  split at made
  · rename_i combined
    have other : rule.combineOp ≠ some "true" := by
      intro always
      rw [always] at combined
      revert combined
      decide
    rw [if_neg other, ← Except.ok.inj made]
    rfl
  · split at made
    · rename_i either
      have other : rule.combineOp ≠ some "true" := by
        intro always
        rw [always] at either
        revert either
        decide
      rw [if_neg other, ← Except.ok.inj made]
      rfl
    · split at made
      · rename_i always
        rw [if_pos always, ← Except.ok.inj made]
        rfl
      · cases made

/-- What is built of a rule that can be built. -/
theorem buildRule_ok {rule : ClaimRule} {built : PolicyRule}
    (made : (buildRule enableExtendedContext rule).2 = .ok built) :
    ∃ operations conditions, rule.operations = some operations ∧
      (TableLoop.forEach (buildOperation enableExtendedContext) operations).2 = .ok conditions ∧
        ruleNew rule conditions = .ok built ∧
        (buildRule enableExtendedContext rule).1 =
          { rule with operations := some (operations.map (wrapOperation enableExtendedContext)) } ∧
        conditions.map (fun operation => operation.left.length) = operations.map fun condition =>
          (wrapOperation enableExtendedContext condition).jwtClaim.length := by
  cases present : rule.operations with
  | none =>
      rw [buildRule_none present] at made
      cases made
  | some operations =>
      rw [buildRule_some present] at made ⊢
      dsimp only at made
      cases completed : (TableLoop.forEach (buildOperation enableExtendedContext) operations).2 with
      | error error =>
          rw [completed] at made
          cases made
      | ok conditions =>
          rw [completed] at made
          obtain ⟨table, lengths⟩ := TableLoop.forEach_ok completed
            (fun operation => operation.left.length) (fun condition => condition.jwtClaim.length)
            (fun condition operation built => congrArg String.length (left_of_operationNew built))
          refine ⟨operations, conditions, rfl, completed, made, ?_, ?_⟩
          · rw [table]
            rfl
          · rw [lengths, table, List.map_map]
            rfl

/-- The policy evaluates the claims that the call leaves in the table. -/
theorem policyRuleLength_eq {rule : ClaimRule} {built : PolicyRule}
    (made : (buildRule enableExtendedContext rule).2 = .ok built) :
    policyRuleLength built = ruleLength (buildRule enableExtendedContext rule).1 := by
  obtain ⟨operations, conditions, _, _, finished, table, lengths⟩ := buildRule_ok made
  rw [policyRuleLength_ruleNew finished, table, lengths]
  unfold ruleLength
  rw [Option.getD_some, List.map_map]
  rfl

/-- The claims of a rule get longer exactly where something is written back. -/
theorem ruleLength_buildRule {rule : ClaimRule} {built : PolicyRule}
    (made : (buildRule enableExtendedContext rule).2 = .ok built) :
    ruleLength rule ≤ ruleLength (buildRule enableExtendedContext rule).1 ∧
      (¬ NothingWrapped rule → ruleLength rule <
          ruleLength (buildRule enableExtendedContext rule).1 ∧
        ¬ NothingWrapped (buildRule enableExtendedContext rule).1) := by
  obtain ⟨operations, conditions, present, _, _, table, _⟩ := buildRule_ok made
  rw [table]
  unfold ruleLength
  rw [present, Option.getD_some, Option.getD_some, List.map_map]
  constructor
  · split
    · exact Nat.le_refl _
    · exact List.sum_le_sum fun condition _ => (length_wrapOperation condition).1
  · intro wrapped
    obtain ⟨evaluated, some_plain⟩ := not_or.mp wrapped
    rw [present] at some_plain
    simp only [Option.mem_some_iff, forall_eq', ne_eq, not_forall, not_not] at some_plain
    obtain ⟨condition, member, plain⟩ := some_plain
    rw [if_neg evaluated, if_neg evaluated]
    constructor
    · exact List.sum_lt_sum _ _ (fun condition _ => (length_wrapOperation condition).1)
        ⟨condition, member, (length_wrapOperation condition).2 plain⟩
    · intro nothing
      rcases nothing with always | unwrapped
      · exact evaluated always
      · apply unwrapped _ rfl _ (List.mem_map_of_mem member)
        rw [wrapOperation_jwtClaimType]
        exact plain

variable {config : JwtClaimConfig} {policy : JwtClaimPolicy}

/-- What a call that does not fail leaves in the table, and what it builds. -/
theorem new_ok (made : (new config).2 = .ok policy) :
    ∃ rules, config.rules = some rules ∧
      (∀ rule ∈ rules, ∃ built, (buildRule config.enableExtendedContext rule).2 = .ok built) ∧
        (new config).1 = { config with
          rules := some (rules.map fun rule => (buildRule config.enableExtendedContext rule).1) } ∧
        policy.rules.map policyRuleLength = rules.map fun rule =>
          ruleLength (buildRule config.enableExtendedContext rule).1 := by
  cases present : config.rules with
  | none =>
      rw [new_none present] at made
      cases made
  | some rules =>
      rw [new_some present] at made ⊢
      dsimp only at made
      cases completed : (TableLoop.forEach (buildRule config.enableExtendedContext) rules).2 with
      | error error =>
          rw [completed] at made
          cases made
      | ok results =>
          rw [completed] at made
          cases made
          obtain ⟨table, lengths⟩ := TableLoop.forEach_ok completed policyRuleLength ruleLength
            (fun rule built finished => policyRuleLength_eq finished)
          refine ⟨rules, rfl, TableLoop.forEach_ok_of_mem completed, by rw [table], ?_⟩
          rw [lengths, table, List.map_map]
          rfl

/-- The policy evaluates the claims that the call leaves in the table. -/
theorem policyLength_eq (made : (new config).2 = .ok policy) :
    policyLength policy = configLength (new config).1 := by
  obtain ⟨rules, _, _, table, lengths⟩ := new_ok made
  unfold policyLength configLength
  rw [lengths, table, Option.getD_some, List.map_map]
  rfl

/-- Every call makes the claims longer when something that matters is written back. -/
theorem configLength_new (made : (new config).2 = .ok policy)
    (written : ¬ NothingWrittenBack config) :
    configLength config < configLength (new config).1 ∧ ¬ NothingWrittenBack (new config).1 := by
  obtain ⟨rules, present, each, table, _⟩ := new_ok made
  unfold NothingWrittenBack at written
  rw [present] at written
  simp only [Option.mem_some_iff, forall_eq', not_forall] at written
  obtain ⟨rule, member, wrapped⟩ := written
  obtain ⟨built, finished⟩ := each rule member
  obtain ⟨longer, again⟩ := (ruleLength_buildRule finished).2 wrapped
  rw [table]
  constructor
  · unfold configLength
    rw [present, Option.getD_some, Option.getD_some, List.map_map]
    refine List.sum_lt_sum _ _ ?_ ⟨rule, member, longer⟩
    intro other otherMember
    obtain ⟨_, otherFinished⟩ := each other otherMember
    exact (ruleLength_buildRule otherFinished).1
  · intro nothing
    exact again (nothing _ rfl _ (List.mem_map_of_mem member))

/-- In a table from which policies are built, the claims get longer with every call. -/
theorem strictMono_configLength (made : (new config).2 = .ok policy)
    (written : ¬ NothingWrittenBack config) :
    StrictMono fun calls => configLength (afterCalls config calls) := by
  have succeeds (calls : Nat) : ∃ later, (new (afterCalls config calls)).2 = .ok later := by
    have same := map_afterCalls config calls
    rw [made] at same
    cases result : (new (afterCalls config calls)).2 with
    | error error =>
        rw [result] at same
        cases same
    | ok later => exact ⟨later, rfl⟩
  have still (calls : Nat) : ¬ NothingWrittenBack (afterCalls config calls) := by
    induction calls with
    | zero => exact written
    | succ calls ih =>
        obtain ⟨later, result⟩ := succeeds calls
        exact (configLength_new result ih).2
  refine strictMono_nat_of_lt_succ fun calls => ?_
  obtain ⟨later, result⟩ := succeeds calls
  exact (configLength_new result (still calls)).1

/-- The n-th call builds the same policy as a call on a fresh table exactly when it is
unaffected. -/
theorem nthPolicy_eq_iff {n : Nat} (positive : 0 < n) :
    nthPolicy config n = (new config).2 ↔ Unaffected config n := by
  constructor
  · intro same
    by_contra affected
    obtain ⟨later, buildable, written⟩ :
        n ≠ 1 ∧ Buildable config ∧ ¬ NothingWrittenBack config := by
      simpa only [Unaffected, not_or, not_not] using affected
    obtain ⟨policy, made⟩ := new_ok_iff.mpr buildable
    rw [made] at same
    have fresh : policyLength policy = configLength (afterCalls config 1) := policyLength_eq made
    have worn : policyLength policy = configLength (afterCalls config (n - 1 + 1)) :=
      policyLength_eq same
    have longer := strictMono_configLength made written (show 1 < n - 1 + 1 by omega)
    exact absurd (fresh.symm.trans worn) (Nat.ne_of_lt longer)
  · exact Unaffected.nthPolicy_eq

end Lengths

section Decisions

variable {config : JwtClaimConfig} {Context : Type*}

/-- For every configuration and every number of calls: a policy that is built by an unaffected
call decides every request as one that is built from a fresh table, and no other call builds the
same policy. -/
theorem decides_as_fresh {n : Nat} (positive : 0 < n) :
    (Unaffected config n → ∀ (library : Library Context) (request : Request Context),
      decideRequest library (nthPolicy config n) request =
        decideRequest library (new config).2 request) ∧
      (nthPolicy config n = (new config).2 → Unaffected config n) := by
  refine ⟨?_, (nthPolicy_eq_iff positive).mp⟩
  intro unaffected library request
  rw [unaffected.nthPolicy_eq]

end Decisions

/-- A rule that asks for the subject of a token to be alice. -/
private def subjectRule (jwtClaim : String) (jwtClaimType : TemplateType) : JwtClaimConfig where
  errorMessage := none
  enableExtendedContext := false
  rules := some [
    { combineOp := none
      methods := none
      resource := "/"
      resourceType := none
      operations := some [⟨jwtClaim, some jwtClaimType, "==", "alice", none⟩] }]

/-- Contexts that consist of the subject of the token. -/
private def subjectLibrary : Library String where
  liquid := fun text => if text = "\x7b\x7bs\x7d\x7d" then some id else none
  isMatch := fun _ _ => true
  gsub := fun subject _ _ => subject
  escapeUri := id

private def subjectRequest : Request String := ⟨"alice", "alice", "/", "GET"⟩

/-- A claim that is given as Liquid is checked by the third policy as by the first one. -/
theorem decides_as_fresh_liquid :
    decideRequest subjectLibrary (nthPolicy (subjectRule "\x7b\x7bs\x7d\x7d" .liquid) 3)
        subjectRequest =
      decideRequest subjectLibrary (new (subjectRule "\x7b\x7bs\x7d\x7d" .liquid)).2
        subjectRequest := by
  apply (decides_as_fresh (by decide)).1
  refine Or.inr (Or.inr ?_)
  intro rules member
  cases member
  refine List.forall_mem_singleton.mpr (Or.inr ?_)
  intro operations present
  cases present
  exact List.forall_mem_singleton.mpr (by decide)

/-- A plain claim: the second policy that is built from the table denies what the first one
lets through. -/
theorem decides_as_fresh_plain :
    (afterCalls (subjectRule "s" .plain) 1) = subjectRule "\x7b\x7bs\x7d\x7d" .plain ∧
      decideRequest subjectLibrary (new (subjectRule "s" .plain)).2 subjectRequest = .returned ∧
      decideRequest subjectLibrary (nthPolicy (subjectRule "s" .plain) 2) subjectRequest =
        .exited ⟨403, some "Request blocked due to JWT claim policy"⟩ :=
  ⟨rfl, rfl, rfl⟩

end Apicast.JwtClaimCheck
