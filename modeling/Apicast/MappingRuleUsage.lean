import Apicast.Configuration.Credentials
import Apicast.MappingRulePatterns
import Apicast.MappingRules
import Apicast.UrlRewriting

/-!
# The usage of a request

A mapping rule applies by its method, its pattern and the parameters of its query string, which are
looked for in a form first and in the query after it. The pattern may carry the query string too,
which is cut off. The rules are gone through in their order, up to the first one that applies and is
marked as the last. What they count is the usage.
-/

namespace Apicast

namespace MappingRuleUsage

open HeadersPolicy (HeaderValue)

open MappingRulePatterns

open UrlRewriting (Arg Args ArgValue)

open Foundation.RegexSyntax (isWord)

/-- A rule as it is configured. The parameters of its query string are the pairs of a table. -/
structure ProxyRule where
  httpMethod : String
  pattern : List Char
  querystringParameters : List (String × String)
  metricSystemName : Option String
  delta : Option Int
  last : Option Bool
  /-- `tonumber(proxy_rule.owner_id)` -/
  ownerId : Option Int
  ownerType : Option String

/-- A mapping rule. -/
structure Rule where
  querystringParameters : List (String × String)
  method : String
  pattern : List Char
  regexpifiedPattern : List Char
  systemName : String
  delta : Option Int
  last : Bool
  ownerId : Option Int

/-- `from_proxy_rule`; `hashToArray` puts the pairs of a table into some order. -/
def fromProxyRule (hashToArray : List (String × String) → List (String × String))
    (proxyRule : ProxyRule) : Except String Rule :=
  match proxyRule.metricSystemName with
  | none => .error "missing metric name of rule"
  | some metric => .ok
      { querystringParameters := hashToArray proxyRule.querystringParameters
        method := proxyRule.httpMethod
        pattern := proxyRule.pattern
        regexpifiedPattern := MappingRulePatterns.regexpifiedPattern proxyRule.pattern
        systemName := metric
        delta := proxyRule.delta
        last := proxyRule.last.getD false
        ownerId := if proxyRule.ownerType = some "BackendApi" then proxyRule.ownerId else none }

/-- `\{[-\w_]+\}` at the beginning. -/
def startsVariable : List Char → Bool
  | '{' :: rest =>
      let name := rest.takeWhile fun c => c = '-' || isWord c
      !name.isEmpty && (rest.drop name.length).head? = some '}'
  | _ => false

/-- `re_match(expected, regex_variable)` -/
def hasVariable (expected : String) : Bool := expected.toList.tails.any startsVariable

/-- One turn of the loop of `matches_querystring_params`. Of many values the last one counts. -/
def matchesParam (args : Args) (param expected : String) : Bool :=
  if hasVariable expected then (args param).isSome
  else
    match args param with
    | none => false
    | some (.single value) => value = .text expected
    | some (.table first rest) => (first :: rest).getLast? = some (.text expected)

def matchesQuerystringParams (args : Args) : List (String × String) → Bool
  | [] => true
  | (param, expected) :: params =>
      if matchesParam args param expected then matchesQuerystringParams args params else false

def anyMethod : String := "ANY"

/-- `_M:matches` of a rule. -/
def Rule.isMatch (rule : Rule) (method : String) (uri : List Char) (args : Args) : Bool :=
  (rule.method = anyMethod || rule.method = method) && matchesUri rule.regexpifiedPattern uri &&
    matchesQuerystringParams args rule.querystringParameters

/-- What a rule that matches is counted by. -/
def Rule.counts (rule : Rule) : MappingRule where
  systemName := rule.systemName
  delta := rule.delta
  ownerId := rule.ownerId

/-- `get_usage_from_matches` -/
def getUsageFromMatches (method : String) (uri : List Char) (args : Args) (rules : List Rule) :
    Usage × List Rule :=
  MappingRules.getUsageFromMatchesLoop Rule.counts (fun rule => rule.isMatch method uri args)
    Rule.last Usage.new [] rules

/-- What the usage of a request is taken from. -/
structure Request where
  isHttp2 : Bool
  method : String
  contentType : Option HeaderValue
  path : List Char
  uriArgs : Args
  /-- `ngx.req.get_post_args`, which fails for some bodies. -/
  postArgs : Option Args

/-- `get_request_params`. The parameters of the query stand behind those of the body. -/
def getRequestParams (request : Request) : Args :=
  if request.isHttp2 then request.uriArgs
  else if request.method ∈ Credentials.httpMethodsWithBody ∧
      Credentials.contentTypeIsUrlencoded request.contentType then
    fun name => (request.postArgs.getD fun _ => none) name <|> request.uriArgs name
  else request.uriArgs

/-- `_M:get_usage` of a service with these rules. -/
def getUsage (rules : List Rule) (request : Request) : Usage × List Rule :=
  getUsageFromMatches request.method request.path (getRequestParams request) rules

/-! ### What a rule means -/

/-- A parameter is given: with any value for a variable, and with the expected value as its last one
otherwise. -/
def Satisfied (args : Args) (parameter : String × String) : Prop :=
  if hasVariable parameter.2 then args parameter.1 ≠ none
  else ∃ arg, args parameter.1 = some arg ∧ arg.values.getLast? = some (.text parameter.2)

/-- The meaning of a rule whose pattern has this shape. -/
structure Applies (shape : ProxyRule → RulePattern) (request : Request) (rule : ProxyRule) : Prop
    where
  method : rule.httpMethod = "ANY" ∨ rule.httpMethod = request.method
  path : (shape rule).Matches request.path
  parameters : ∀ parameter ∈ rule.querystringParameters,
    Satisfied (getRequestParams request) parameter

/-- The rules that count: those that apply, up to the first one that is the last. -/
inductive Counted (applies : ProxyRule → Prop) : List ProxyRule → List ProxyRule → Prop
  | nil : Counted applies [] []
  | skip {rule : ProxyRule} {rules counted : List ProxyRule} : ¬applies rule →
      Counted applies rules counted → Counted applies (rule :: rules) counted
  | last {rule : ProxyRule} {rules : List ProxyRule} : applies rule → rule.last = some true →
      Counted applies (rule :: rules) [rule]
  | next {rule : ProxyRule} {rules counted : List ProxyRule} : applies rule →
      rule.last ≠ some true → Counted applies rules counted →
      Counted applies (rule :: rules) (rule :: counted)

/-- What a rule counts for a metric. -/
def ProxyRule.count (metric : String) (rule : ProxyRule) : Int :=
  if rule.metricSystemName = some metric then rule.delta.getD 0 else 0

/-- The patterns have these shapes, in which no operator is a literal, and may be followed by their
query strings. -/
structure Documented (shape : ProxyRule → RulePattern) (proxyRule : ProxyRule) : Prop where
  shaped : proxyRule.pattern = (shape proxyRule).text ∨
    ∃ query, '\n' ∉ query ∧ proxyRule.pattern = (shape proxyRule).text ++ '?' :: query
  plain : ∀ c, .literal c ∈ (shape proxyRule).parts → c ∉ unescaped

section Matching

variable {args : Args} {hashToArray : List (String × String) → List (String × String)}
  {shape : ProxyRule → RulePattern} {request : Request} {proxyRule : ProxyRule} {rule : Rule}

theorem matchesParam_iff (param expected : String) :
    matchesParam args param expected ↔ Satisfied args (param, expected) := by
  unfold matchesParam Satisfied
  dsimp only
  split
  · rw [Option.isSome_iff_ne_none]
  · cases args param with
    | none => simp
    | some arg =>
        cases arg with
        | single value => simp [Arg.values]
        | table first rest => simp [Arg.values]

theorem matchesQuerystringParams_iff (params : List (String × String)) :
    matchesQuerystringParams args params ↔ ∀ parameter ∈ params, Satisfied args parameter := by
  induction params with
  | nil => exact iff_of_true rfl fun _ member => by cases member
  | cons parameter params ih =>
      rw [List.forall_mem_cons, ← ih, ← matchesParam_iff]
      simp [matchesQuerystringParams]

/-- The query string of a pattern is cut off. -/
theorem Documented.regexpified (documented : Documented shape proxyRule) :
    regexpifiedPattern proxyRule.pattern = regexpifiedPattern (shape proxyRule).text := by
  rcases documented.shaped with same | ⟨query, unbroken, same⟩
  · rw [same]
  · rw [same, regexpifiedPattern, regexpify_query _ unbroken]
    rfl

/-- A rule matches when it applies, in whatever order its parameters are looked at. -/
theorem isMatch_iff (orders : ∀ hash, (hashToArray hash).Perm hash)
    (parsed : fromProxyRule hashToArray proxyRule = .ok rule)
    (documented : Documented shape proxyRule) (escaped : Escaped request.path) :
    rule.isMatch request.method request.path (getRequestParams request) ↔
      Applies shape request proxyRule := by
  unfold fromProxyRule at parsed
  split at parsed
  · cases parsed
  · cases parsed
    have path := matchesUri_iff_of_plain (shape proxyRule) documented.plain escaped
    have params := @matchesQuerystringParams_iff (getRequestParams request)
      (hashToArray proxyRule.querystringParameters)
    simp only [(orders proxyRule.querystringParameters).mem_iff] at params
    rw [← documented.regexpified] at path
    unfold Rule.isMatch
    rw [Bool.and_eq_true, Bool.and_eq_true, path, params, Bool.or_eq_true, decide_eq_true_iff,
      decide_eq_true_iff]
    constructor
    · rintro ⟨⟨method, matched⟩, satisfied⟩
      exact ⟨method, matched, satisfied⟩
    · intro applies
      exact ⟨⟨applies.method, applies.path⟩, applies.parameters⟩

theorem count_eq (parsed : fromProxyRule hashToArray proxyRule = .ok rule) (metric : String) :
    proxyRule.count metric = if rule.systemName = metric then rule.delta.getD 0 else 0 := by
  unfold fromProxyRule at parsed
  split at parsed
  · cases parsed
  · rename_i name named
    cases parsed
    simp [ProxyRule.count, named]

theorem last_iff (parsed : fromProxyRule hashToArray proxyRule = .ok rule) :
    rule.last ↔ proxyRule.last = some true := by
  unfold fromProxyRule at parsed
  split at parsed
  · cases parsed
  · cases parsed
    cases marked : proxyRule.last with
    | none => simp
    | some last => simp

end Matching

section Loop

variable {hashToArray : List (String × String) → List (String × String)}
  {shape : ProxyRule → RulePattern} {request : Request} {proxyRules : List ProxyRule}
  {rules : List Rule}

/-- Each rule is parsed. -/
def Parsed (hashToArray : List (String × String) → List (String × String)) :
    List ProxyRule → List Rule → Prop :=
  List.Forall₂ fun proxyRule rule => fromProxyRule hashToArray proxyRule = .ok rule

/-- The loop of `get_usage_from_matches` over the rules of a service. -/
def matchLoop (request : Request) : Usage → List Rule → List Rule → Usage × List Rule :=
  MappingRules.getUsageFromMatchesLoop Rule.counts
    (fun rule => rule.isMatch request.method request.path (getRequestParams request)) Rule.last

/-- What the loop adds to the usage and to the matched rules is what counts. -/
theorem exists_counted_loop (orders : ∀ hash, (hashToArray hash).Perm hash)
    (parsed : Parsed hashToArray proxyRules rules)
    (documented : ∀ proxyRule ∈ proxyRules, Documented shape proxyRule)
    (escaped : Escaped request.path) (usage : Usage) (matchedRules : List Rule) :
    ∃ counted added, Counted (Applies shape request) proxyRules counted ∧
      Parsed hashToArray counted added ∧
      (matchLoop request usage matchedRules rules).2 = matchedRules ++ added ∧
      ∀ metric, (matchLoop request usage matchedRules rules).1.delta metric =
        usage.delta metric + (counted.map (ProxyRule.count metric)).sum := by
  induction parsed generalizing usage matchedRules with
  | nil => exact ⟨[], [], .nil, .nil, (List.append_nil _).symm, fun _ => (Int.add_zero _).symm⟩
  | @cons proxyRule rule proxyRules rules first _ ih =>
      have later := ih fun other member => documented other (List.mem_cons_of_mem _ member)
      have means := isMatch_iff orders first (documented proxyRule List.mem_cons_self) escaped
      have unfolded : matchLoop request usage matchedRules (rule :: rules) =
          if rule.isMatch request.method request.path (getRequestParams request) then
            if rule.last then
              (usage.add rule.systemName (rule.delta.getD 0), matchedRules ++ [rule])
            else matchLoop request (usage.add rule.systemName (rule.delta.getD 0))
              (matchedRules ++ [rule]) rules
          else matchLoop request usage matchedRules rules := rfl
      rw [unfolded]
      by_cases applies : Applies shape request proxyRule
      · rw [if_pos (means.mpr applies)]
        by_cases marked : rule.last
        · rw [if_pos marked]
          refine ⟨[proxyRule], [rule], .last applies ((last_iff first).mp marked),
            .cons first .nil, rfl, fun metric => ?_⟩
          rw [Usage.delta_add, List.map_singleton, List.sum_singleton, count_eq first]
        · obtain ⟨counted, added, counts, parsed, matched, amounts⟩ :=
            later (usage.add rule.systemName (rule.delta.getD 0)) (matchedRules ++ [rule])
          rw [if_neg marked]
          refine ⟨proxyRule :: counted, rule :: added,
            .next applies (fun last => marked ((last_iff first).mpr last)) counts,
            .cons first parsed, ?_, fun metric => ?_⟩
          · rw [matched, List.append_assoc, List.singleton_append]
          · rw [amounts, Usage.delta_add, List.map_cons, List.sum_cons, count_eq first,
              Int.add_assoc]
      · obtain ⟨counted, added, counts, parsed, matched, amounts⟩ := later usage matchedRules
        rw [if_neg (mt means.mp applies)]
        exact ⟨counted, added, .skip applies counts, parsed, matched, amounts⟩

/-- The usage of a request is the one of its matched rules. -/
theorem usage_getUsage (rules : List Rule) (request : Request) :
    (getUsage rules request).1 =
      MappingRules.getUsageFromMatches ((getUsage rules request).2.map Rule.counts) :=
  MappingRules.getUsageFromMatchesLoop_usage Rule.counts _ Rule.last rules

/-- **The usage of a request.** For every order of the parameters, the matched rules are those that
count, and what they count for a metric is its amount. -/
theorem exists_counted (hashToArray : List (String × String) → List (String × String))
    (shape : ProxyRule → RulePattern) (request : Request) (proxyRules : List ProxyRule)
    (rules : List Rule) (orders : ∀ hash, (hashToArray hash).Perm hash)
    (parsed : Parsed hashToArray proxyRules rules)
    (documented : ∀ proxyRule ∈ proxyRules, Documented shape proxyRule)
    (escaped : Escaped request.path) :
    ∃ counted, Counted (Applies shape request) proxyRules counted ∧
      Parsed hashToArray counted (getUsage rules request).2 ∧
      ∀ metric, (getUsage rules request).1.delta metric =
        (counted.map (ProxyRule.count metric)).sum := by
  obtain ⟨counted, added, counts, matching, matched, amounts⟩ :=
    exists_counted_loop orders parsed documented escaped Usage.new []
  refine ⟨counted, counts, ?_, fun metric => ?_⟩
  · rw [List.nil_append] at matched
    exact matched ▸ matching
  · have amount := amounts metric
    rw [Usage.delta_new, Int.zero_add] at amount
    exact amount

/-- `/a/{id}` -/
def accountPattern : RulePattern where
  parts := [.literal '/', .literal 'a', .literal '/', .placeholder ['i', 'd']]
  anchored := false
  literals := by simp; decide
  names := by simp
  slashes := by decide

/-- The pattern carries its query string. -/
def accountRule : ProxyRule where
  httpMethod := "POST"
  pattern := "/a/{id}?kind={any}&level=1".toList
  querystringParameters := [("kind", "{any}"), ("level", "1")]
  metricSystemName := some "hits"
  delta := some 2
  last := some true
  ownerId := none
  ownerType := none

/-- A rule for all methods, without parameters. -/
def anyRule : ProxyRule :=
  { accountRule with
    httpMethod := "ANY", pattern := "/a/{id}".toList, querystringParameters := [], last := none }

/-- The form overrides the level of the query. -/
def accountRequest : Request where
  isHttp2 := false
  method := "POST"
  contentType := some (.text "application/x-www-form-urlencoded; charset=utf-8")
  path := "/a/7".toList
  uriArgs name := if name = "level" then some (.single (.text "2")) else none
  postArgs := some fun name =>
    if name = "kind" then some (.single .flag)
    else if name = "level" then some (.table (.text "2") [.text "1"]) else none

/-- What two rules count when their parameters are looked at from the last to the first. -/
theorem exists_counted_account :
    ∃ rules counted,
      Counted (Applies (fun _ => accountPattern) accountRequest) [anyRule, accountRule] counted ∧
      Parsed List.reverse counted (getUsage rules accountRequest).2 ∧
      ∀ metric, (getUsage rules accountRequest).1.delta metric =
        (counted.map (ProxyRule.count metric)).sum := by
  have parsed : Parsed List.reverse [anyRule, accountRule] [_, _] := .cons rfl (.cons rfl .nil)
  refine ⟨_, exists_counted List.reverse (fun _ => accountPattern) accountRequest
    [anyRule, accountRule] _ List.reverse_perm parsed ?_
    (by simp [Escaped, accountRequest]; decide)⟩
  have plain : ∀ c, .literal c ∈ accountPattern.parts → c ∉ unescaped := by
    simp [accountPattern, unescaped]
  refine List.forall_mem_cons.mpr
    ⟨⟨.inl rfl, plain⟩, List.forall_mem_singleton.mpr ⟨.inr ?_, plain⟩⟩
  exact ⟨"kind={any}&level=1".toList, by decide, rfl⟩

end Loop

end MappingRuleUsage

end Apicast
