import Apicast.UsageFormat
import Apicast.UsageLaws

/-!
# Usage of mapping rules and routed owners

The usage of a request is the one of its matched mapping rules, less the one of
rules of other owners than the one it is routed to. A request whose encoded usage
is empty matches no mapping rule. The proxy tests this after the cleanup for the
owner, the batcher before it.
-/

namespace Apicast

open Foundation

/-- A mapping rule that matched. -/
structure MappingRule where
  systemName : String
  delta : Option Int
  ownerId : Option Int

namespace MappingRules

def getUsageFromMatches (rules : List MappingRule) : Usage :=
  Usage.new.addAll (rules.map fun rule => (rule.systemName, rule.delta.getD 0))

/-- The loop of `get_usage_from_matches`, which ends at a rule that is the last one to match. It
gives the usage and the rules that matched; what it reads of a rule to count it is `counts`. -/
def getUsageFromMatchesLoop {Rule : Type} (counts : Rule → MappingRule)
    (ruleMatches last : Rule → Bool) (usage : Usage) (matchedRules : List Rule) :
    List Rule → Usage × List Rule
  | [] => (usage, matchedRules)
  | rule :: rules =>
      if ruleMatches rule then
        let usage := usage.add (counts rule).systemName ((counts rule).delta.getD 0)
        let matchedRules := matchedRules ++ [rule]
        if last rule then (usage, matchedRules)
        else getUsageFromMatchesLoop counts ruleMatches last usage matchedRules rules
      else getUsageFromMatchesLoop counts ruleMatches last usage matchedRules rules

/-- The rule belongs to another owner. -/
def ofOther (ownerId : Option Int) (rule : MappingRule) : Bool :=
  match ownerId, rule.ownerId with
  | some ownerId, some owner => ownerId ≠ owner
  | _, _ => false

def cleanUsageByOwnerId (rules : List MappingRule) (ownerId : Option Int) : Usage :=
  Usage.new.addAll ((rules.filter (ofOther ownerId)).map fun rule =>
    (rule.systemName, 0 - rule.delta.getD 0))

/-- The usage of the context after the rewrite phase. -/
def contextUsage (rules : List MappingRule) : Usage :=
  Usage.new.merge (getUsageFromMatches rules)

/-- `context:route_upstream_usage_cleanup`, with the owner of the selected upstream. -/
def routeUpstreamUsageCleanup (usage : Usage) (rules : List MappingRule) (ownerId : Option Int) :
    Usage :=
  usage.merge (cleanUsageByOwnerId rules ownerId)

/-- How an access phase starts. -/
inductive AccessStart
  | noMatch
  | proceeds (usage : Usage)

/-- The access phase of the proxy cleans the usage up and then tests it. -/
def proxyAccess (rules : List MappingRule) (ownerId : Option Int) : AccessStart :=
  let usage := routeUpstreamUsageCleanup (contextUsage rules) rules ownerId
  if usage.encodedFormat = "" then .noMatch else .proceeds usage

/-- The access phase of the batcher tests the usage and then cleans it up. -/
def batcherAccess (rules : List MappingRule) (ownerId : Option Int) : AccessStart :=
  let usage := contextUsage rules
  if usage.encodedFormat = "" then .noMatch
  else .proceeds (routeUpstreamUsageCleanup usage rules ownerId)

section Totals

variable (rules : List MappingRule) (ownerId : Option Int) (metric : String)

/-- The sum of the deltas of a metric. -/
def total : Int :=
  (rules.map fun rule => if rule.systemName = metric then rule.delta.getD 0 else 0).sum

/-- What is left of a metric without the rules of other owners. -/
def left : Int := max (total rules metric) 0 - total (rules.filter (ofOther ownerId)) metric

theorem delta_getUsageFromMatches :
    (getUsageFromMatches rules).delta metric = total rules metric := by
  unfold getUsageFromMatches total
  rw [Usage.delta_addAll, Usage.delta_new, Int.zero_add, List.map_map]
  rfl

theorem delta_cleanUsageByOwnerId :
    (cleanUsageByOwnerId rules ownerId).delta metric =
      - total (rules.filter (ofOther ownerId)) metric := by
  unfold cleanUsageByOwnerId total
  rw [Usage.delta_addAll, Usage.delta_new, Int.zero_add, List.sum_neg, List.map_map, List.map_map]
  apply congrArg List.sum
  apply List.map_congr_left
  intro rule _
  change (if rule.systemName = metric then 0 - rule.delta.getD 0 else 0) =
    -if rule.systemName = metric then rule.delta.getD 0 else 0
  split <;> omega

/-- A metric is in the usage of a request when its total is positive. -/
theorem mem_contextUsage : metric ∈ (contextUsage rules).metrics ↔ 0 < total rules metric := by
  unfold contextUsage
  rw [Usage.mem_metrics_merge, Usage.delta_new, delta_getUsageFromMatches, Int.zero_add]
  split
  · rfl
  · rename_i unlisted
    have nothing := Usage.delta_of_not_mem _ _ unlisted
    rw [delta_getUsageFromMatches] at nothing
    rw [nothing]
    exact iff_of_false List.not_mem_nil (lt_irrefl 0)

theorem delta_contextUsage : (contextUsage rules).delta metric = max (total rules metric) 0 := by
  unfold contextUsage
  rw [Usage.delta_merge, Usage.delta_new, delta_getUsageFromMatches, Int.zero_add]
  split
  · rfl
  · rename_i unlisted
    have nothing := Usage.delta_of_not_mem _ _ unlisted
    rw [delta_getUsageFromMatches] at nothing
    rw [nothing]
    rfl

/-- A metric stays in the usage when something is left of it. -/
theorem mem_routeUpstreamUsageCleanup :
    metric ∈ (routeUpstreamUsageCleanup (contextUsage rules) rules ownerId).metrics ↔
      0 < left rules ownerId metric := by
  unfold routeUpstreamUsageCleanup left
  rw [Usage.mem_metrics_merge, delta_contextUsage, delta_cleanUsageByOwnerId, mem_contextUsage]
  split
  · rw [Int.sub_eq_add_neg]
  · rename_i unlisted
    have nothing := Usage.delta_of_not_mem _ _ unlisted
    rw [delta_cleanUsageByOwnerId] at nothing
    omega

variable {rules}

theorem total_cons (rule : MappingRule) :
    total (rule :: rules) metric =
      (if rule.systemName = metric then rule.delta.getD 0 else 0) + total rules metric := by
  unfold total
  rw [List.map_cons, List.sum_cons]

theorem total_filter_add (other : MappingRule → Bool) :
    total (rules.filter other) metric + total (rules.filter fun rule => !other rule) metric =
      total rules metric := by
  induction rules with
  | nil => rfl
  | cons rule rules ih =>
      rw [List.filter_cons, List.filter_cons]
      cases other rule with
      | true =>
          simp only [↓reduceIte, Bool.not_true, Bool.false_eq_true, total_cons]
          omega
      | false =>
          simp only [↓reduceIte, Bool.not_false, Bool.false_eq_true, total_cons]
          omega

theorem total_nonneg (nonneg : ∀ rule ∈ rules, 0 ≤ rule.delta.getD 0) : 0 ≤ total rules metric := by
  induction rules with
  | nil => exact le_refl 0
  | cons rule rules ih =>
      have first := nonneg rule List.mem_cons_self
      have rest := ih fun rule member => nonneg rule (List.mem_cons_of_mem _ member)
      rw [total_cons]
      split <;> omega

/-- Without negative deltas a total is positive when one of its rules counts. -/
theorem total_pos_iff (nonneg : ∀ rule ∈ rules, 0 ≤ rule.delta.getD 0) :
    0 < total rules metric ↔
      ∃ rule ∈ rules, rule.systemName = metric ∧ 0 < rule.delta.getD 0 := by
  induction rules with
  | nil => exact iff_of_false (lt_irrefl 0) fun counts => nomatch counts.choose_spec.1
  | cons rule rules ih =>
      have first := nonneg rule List.mem_cons_self
      have later : ∀ rule ∈ rules, 0 ≤ rule.delta.getD 0 := fun rule member =>
        nonneg rule (List.mem_cons_of_mem _ member)
      have rest := total_nonneg metric later
      rw [total_cons, List.exists_mem_cons_iff, ← ih later]
      by_cases same : rule.systemName = metric
      · simp only [same, ↓reduceIte, true_and]
        omega
      · simp only [same, ↓reduceIte, false_and, false_or, Int.zero_add]

/-- Without negative deltas something is left of a metric when one of its rules that are not of
another owner counts. -/
theorem left_pos_iff (nonneg : ∀ rule ∈ rules, 0 ≤ rule.delta.getD 0) :
    0 < left rules ownerId metric ↔
      ∃ rule ∈ rules, ofOther ownerId rule = false ∧ rule.systemName = metric ∧
        0 < rule.delta.getD 0 := by
  have parts : _ = total rules metric := total_filter_add metric (ofOther ownerId)
  have kept : left rules ownerId metric =
      total (rules.filter fun rule => !ofOther ownerId rule) metric := by
    have whole := total_nonneg metric nonneg
    unfold left
    omega
  rw [kept, total_pos_iff metric fun rule member => nonneg rule (List.mem_filter.mp member).1]
  simp only [List.mem_filter, Bool.not_eq_eq_eq_not, Bool.not_true, and_assoc]

end Totals

theorem batcherAccess_eq_noMatch (rules : List MappingRule) (ownerId : Option Int) :
    batcherAccess rules ownerId = .noMatch ↔ ¬ ∃ metric, 0 < total rules metric := by
  have start : batcherAccess rules ownerId = .noMatch ↔ (contextUsage rules).metrics = [] := by
    rw [← Usage.encodedFormat_eq_empty]
    unfold batcherAccess
    dsimp only
    split
    · rename_i empty
      exact iff_of_true rfl empty
    · rename_i nonempty
      exact iff_of_false nofun nonempty
  rw [start, List.eq_nil_iff_forall_not_mem, not_exists]
  simp only [mem_contextUsage]

theorem proxyAccess_eq_noMatch (rules : List MappingRule) (ownerId : Option Int) :
    proxyAccess rules ownerId = .noMatch ↔ ¬ ∃ metric, 0 < left rules ownerId metric := by
  have start : proxyAccess rules ownerId = .noMatch ↔
      (routeUpstreamUsageCleanup (contextUsage rules) rules ownerId).metrics = [] := by
    rw [← Usage.encodedFormat_eq_empty]
    unfold proxyAccess
    dsimp only
    split
    · rename_i empty
      exact iff_of_true rfl empty
    · rename_i nonempty
      exact iff_of_false nofun nonempty
  rw [start, List.eq_nil_iff_forall_not_mem, not_exists]
  simp only [mem_routeUpstreamUsageCleanup]

/-- Without negative deltas the policies agree exactly when, with any rule that counts, there is one
that is not of another owner. -/
theorem noMatch_agree_of_nonneg {rules : List MappingRule} (ownerId : Option Int)
    (nonneg : ∀ rule ∈ rules, 0 ≤ rule.delta.getD 0) :
    (batcherAccess rules ownerId = .noMatch ↔ proxyAccess rules ownerId = .noMatch) ↔
      ((∃ rule ∈ rules, 0 < rule.delta.getD 0) →
        ∃ rule ∈ rules, ofOther ownerId rule = false ∧ 0 < rule.delta.getD 0) := by
  have counted : (∃ metric, 0 < total rules metric) ↔ ∃ rule ∈ rules, 0 < rule.delta.getD 0 := by
    simp only [total_pos_iff _ nonneg]
    constructor
    · rintro ⟨metric, rule, member, _, positive⟩
      exact ⟨rule, member, positive⟩
    · rintro ⟨rule, member, positive⟩
      exact ⟨rule.systemName, rule, member, rfl, positive⟩
  have kept : (∃ metric, 0 < left rules ownerId metric) ↔
      ∃ rule ∈ rules, ofOther ownerId rule = false ∧ 0 < rule.delta.getD 0 := by
    simp only [left_pos_iff ownerId _ nonneg]
    constructor
    · rintro ⟨metric, rule, member, own, _, positive⟩
      exact ⟨rule, member, own, positive⟩
    · rintro ⟨rule, member, own, positive⟩
      exact ⟨rule.systemName, rule, member, own, rfl, positive⟩
  rw [batcherAccess_eq_noMatch, proxyAccess_eq_noMatch, not_iff_not, counted, kept]
  refine ⟨Iff.mp, fun enough => ⟨enough, ?_⟩⟩
  rintro ⟨rule, member, _, positive⟩
  exact ⟨rule, member, positive⟩

/-- The policies agree on a request that matches no rule exactly when some metric has a
positive total if and only if some metric has something left. -/
theorem noMatch_agree_iff (rules : List MappingRule) (ownerId : Option Int) :
    (batcherAccess rules ownerId = .noMatch ↔ proxyAccess rules ownerId = .noMatch) ↔
      ((∃ metric, 0 < total rules metric) ↔ ∃ metric, 0 < left rules ownerId metric) := by
  rw [batcherAccess_eq_noMatch, proxyAccess_eq_noMatch, not_iff_not]

/-- With one rule of another owner than the one the request is routed to, the proxy rejects the
request and the batcher lets it through to the authorization. -/
theorem noMatch_disagree :
    ¬ (batcherAccess [⟨"hits", some 1, some 1⟩] (some 2) = .noMatch ↔
      proxyAccess [⟨"hits", some 1, some 1⟩] (some 2) = .noMatch) := by
  intro agree
  have rejected := agree.mpr rfl
  cases rejected

section Matched

/-- The usage that the loop accumulates is the one of the rules that it matched. -/
theorem getUsageFromMatchesLoop_usage {Rule : Type} (counts : Rule → MappingRule)
    (ruleMatches last : Rule → Bool) (rules : List Rule) :
    (getUsageFromMatchesLoop counts ruleMatches last .new [] rules).1 =
      getUsageFromMatches
        ((getUsageFromMatchesLoop counts ruleMatches last .new [] rules).2.map counts) := by
  have accumulated (rules matched : List Rule) :
      (getUsageFromMatchesLoop counts ruleMatches last (getUsageFromMatches (matched.map counts))
        matched rules).1 =
        getUsageFromMatches ((getUsageFromMatchesLoop counts ruleMatches last
          (getUsageFromMatches (matched.map counts)) matched rules).2.map counts) := by
    induction rules generalizing matched with
    | nil => rfl
    | cons rule rules ih =>
        have next : (getUsageFromMatches (matched.map counts)).add (counts rule).systemName
            ((counts rule).delta.getD 0) =
              getUsageFromMatches ((matched ++ [rule]).map counts) := by
          unfold getUsageFromMatches Usage.addAll
          rw [List.map_append, List.map_append, List.foldl_append]
          rfl
        unfold getUsageFromMatchesLoop
        split
        · dsimp only
          rw [next]
          split
          · rfl
          · exact ih (matched ++ [rule])
        · exact ih matched
  exact accumulated rules []

end Matched

section Owner

variable {rules : List MappingRule} {ownerId : Int} {metric : String}

/-- The rule has no owner or this one. -/
def ofOwner (ownerId : Int) (rule : MappingRule) : Bool :=
  decide (rule.ownerId = none ∨ rule.ownerId = some ownerId)

theorem ofOther_some (rule : MappingRule) :
    ofOther (some ownerId) rule = !ofOwner ownerId rule := by
  unfold ofOther ofOwner
  cases rule.ownerId with
  | none => rfl
  | some owner => simp only [ne_eq, decide_not, reduceCtorEq, false_or, Option.some.injEq, eq_comm]

/-- What the rules of an owner and those without one count for a metric. -/
def ownTotal (rules : List MappingRule) (ownerId : Int) (metric : String) : Int :=
  total (rules.filter (ofOwner ownerId)) metric

variable (rules ownerId metric) in
theorem total_eq_add : total rules metric =
    ownTotal rules ownerId metric + total (rules.filter (ofOther (some ownerId))) metric := by
  have parts : _ = total rules metric := total_filter_add metric (ofOwner ownerId)
  rw [← parts, funext ofOther_some]
  rfl

/-- Cleaning up adds something to a metric exactly when a rule of another owner hit it. -/
theorem mem_cleanUsageByOwnerId :
    metric ∈ (cleanUsageByOwnerId rules (some ownerId)).metrics ↔
      ∃ rule ∈ rules, rule.systemName = metric ∧ ofOwner ownerId rule = false := by
  have empty : metric ∉ Usage.new.metrics := List.not_mem_nil
  unfold cleanUsageByOwnerId
  rw [Usage.mem_metrics_addAll, or_iff_right empty]
  simp only [List.mem_map, List.mem_filter, ofOther_some, Bool.not_eq_eq_eq_not, Bool.not_true,
    Prod.mk.injEq]
  constructor
  · rintro ⟨_, rule, ⟨member, other⟩, name, _⟩
    exact ⟨rule, member, name, other⟩
  · rintro ⟨rule, member, name, other⟩
    exact ⟨_, rule, ⟨member, other⟩, name, rfl⟩

/-- What is expected of a usage that is cleaned up for an owner: the metrics have what the rules
of the owner and those without one count for them. -/
structure CleanedUp (usage cleaned : Usage) (rules : List MappingRule) (ownerId : Int) : Prop where
  positive : ∀ metric, 0 < ownTotal rules ownerId metric →
    cleaned.deltas.get metric = some (ownTotal rules ownerId metric)
  removed : ∀ metric, ownTotal rules ownerId metric ≤ 0 →
    (∃ rule ∈ rules, rule.systemName = metric ∧ ofOwner ownerId rule = false) →
      cleaned.deltas.get metric = none
  unchanged : ∀ metric, (∀ rule ∈ rules, rule.systemName = metric → ofOwner ownerId rule) →
    cleaned.deltas.get metric = usage.deltas.get metric

/-- It is enough that the amounts of the usage are the totals of the rules. -/
theorem cleanedUp_of_delta {usage : Usage}
    (totals : ∀ metric, usage.delta metric = total rules metric) :
    CleanedUp usage (routeUpstreamUsageCleanup usage rules (some ownerId)) rules ownerId := by
  have remains (metric : String) :
      usage.delta metric + (cleanUsageByOwnerId rules (some ownerId)).delta metric =
        ownTotal rules ownerId metric := by
    have parts := total_eq_add rules ownerId metric
    rw [totals, delta_cleanUsageByOwnerId]
    omega
  unfold routeUpstreamUsageCleanup
  refine ⟨?_, ?_, ?_⟩
  · intro metric positive
    rw [Usage.get_merge]
    split
    · rw [remains, if_pos positive]
    · rename_i unhit
      have own := remains metric
      rw [Usage.delta_of_not_mem _ _ unhit, add_zero] at own
      have present : metric ∈ usage.metrics := by
        by_contra absent
        rw [Usage.delta_of_not_mem _ _ absent] at own
        omega
      rw [Usage.get_eq, if_pos present, own]
  · intro metric nothing hit
    rw [Usage.get_merge, if_pos (mem_cleanUsageByOwnerId.mpr hit), remains,
      if_neg (not_lt.mpr nothing)]
  · intro metric own
    rw [Usage.get_merge, if_neg]
    intro hit
    obtain ⟨rule, member, name, other⟩ := mem_cleanUsageByOwnerId.mp hit
    rw [own rule member name] at other
    cases other

/-- The cleanup for the owner that a request is routed to leaves what its rules and those without
an owner count, in the usage of the matched rules and in the one of the context. -/
theorem cleanedUp (rules : List MappingRule) (ownerId : Int)
    (nonneg : ∀ rule ∈ rules, 0 ≤ rule.delta.getD 0) :
    CleanedUp (getUsageFromMatches rules)
        (routeUpstreamUsageCleanup (getUsageFromMatches rules) rules (some ownerId))
        rules ownerId ∧
      CleanedUp (contextUsage rules)
        (routeUpstreamUsageCleanup (contextUsage rules) rules (some ownerId)) rules ownerId := by
  constructor
  · exact cleanedUp_of_delta (delta_getUsageFromMatches rules)
  · apply cleanedUp_of_delta
    intro metric
    rw [delta_contextUsage, max_eq_left (total_nonneg metric nonneg)]

/-- A metric that two owners share keeps what the rules of the routed one count. -/
theorem cleanedUp_shared :
    (routeUpstreamUsageCleanup
      (contextUsage [⟨"hits", some 2, some 1⟩, ⟨"hits", some 3, some 2⟩, ⟨"hits", some 1, none⟩])
      [⟨"hits", some 2, some 1⟩, ⟨"hits", some 3, some 2⟩, ⟨"hits", some 1, none⟩]
      (some 2)).deltas.get "hits" = some 4 :=
  (cleanedUp [⟨"hits", some 2, some 1⟩, ⟨"hits", some 3, some 2⟩, ⟨"hits", some 1, none⟩] 2
    (by decide)).2.positive "hits" (by decide)

end Owner

end MappingRules

end Apicast
