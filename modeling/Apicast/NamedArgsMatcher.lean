import Apicast.Foundation.Replacement
import Apicast.Foundation.Substitution
import Apicast.MappingRulePatterns

/-!
# The matcher of the policy that rewrites URLs

`policy/rewrite_url_captures/named_args_matcher.lua`. A rule matches a path and captures a text for
each of its named arguments. In the template they are replaced one after the other, and what that
makes is split into the new path and its query parameters, of which two are kept.
-/

namespace Apicast.RewriteUrlCaptures

open Foundation
open MappingRulePatterns (placeholderLength replacePlaceholders)

/-- The regular expressions of the server. -/
structure Library where
  /-- `ngx.re.match`: what the groups captured. One that did not take part in the match has
  `false`. -/
  reMatch (subject expression : List Char) : Option (List (Option (List Char)))
  /-- `ngx.re.gsub`, without a result for an error. -/
  reGsub (subject expression replacement : List Char) : Option (List Char)

def braces : Brackets Char where
  opening := '{'
  closing := '}'
  different := by decide

/-- What the group of `[[\{(.+?)\}]]` captures, after some characters of the last match. -/
def argNames : (matched : Nat) → List Char → List (List Char)
  | _, [] => []
  | matched + 1, _ :: rest => argNames matched rest
  | 0, c :: rest =>
      if c = '{' then
        match placeholderLength rest with
        | some length => rest.take (length - 1) :: argNames length rest
        | none => argNames 0 rest
      else argNames 0 rest

/-- `extract_named_args` -/
def extractNamedArgs (matchRule : List Char) : List (List Char) :=
  (argNames 0 matchRule).map braces.around

/-- `transform_rule_to_regex`, with the same substitution as the mapping rules. -/
def transformRuleToRegex (matchRule : List Char) : List Char := replacePlaceholders 0 matchRule

structure NamedArgsMatcher where
  namedArgs : List (List Char)
  regexRule : List Char
  template : List Char
  methods : Option (List String)

/-- `_M.new` -/
def new (matchRule template : List Char) (methods : Option (List String)) : NamedArgsMatcher where
  namedArgs := extractNamedArgs matchRule
  regexRule := transformRuleToRegex matchRule
  template := template
  methods := methods

structure Request where
  method : String
  path : List Char

/-- `is_match_methods` -/
def isMatchMethods (requestMethod : String) : Option (List String) → Bool
  | none | some [] => true
  | some methods => methods.contains requestMethod

section Split

/-- The pieces between the first separators, after some characters of a piece. -/
def splitFrom (separator : Char) : (separators : Nat) → (piece : List Char) → List Char →
    List (List Char)
  | _, piece, [] => [piece]
  | 0, piece, rest => [piece ++ rest]
  | separators + 1, piece, c :: rest =>
      if c = separator then piece :: splitFrom separator separators [] rest
      else splitFrom separator (separators + 1) (piece ++ [c]) rest

/-- `split`, into not more pieces than a positive maximum. -/
def split (text : List Char) (separator : Char) (maxMatches : Nat) : List (List Char) :=
  splitFrom separator (maxMatches - 1) [] text

/-- One round of the loop of `string_params_to_tables`. What is nil is not inserted. -/
def insertParam (tables : List (List Char) × List (List Char)) (param : List Char) :
    List (List Char) × List (List Char) :=
  let parts := split param '=' 2
  (tables.1 ++ parts[0]?.toList, tables.2 ++ parts[1]?.toList)

/-- `string_params_to_tables` -/
def stringParamsToTables : Option (List Char) → List (List Char) × List (List Char)
  | none => ([], [])
  | some stringParams => (split stringParams '&' 2).foldl insertParam ([], [])

/-- `uri_and_params_from_template` -/
def uriAndParamsFromTemplate (template : List Char) : Option (List Char) × Option (List Char) :=
  let parts := split template '?' 2
  (parts[0]?, parts[1]?)

end Split

variable (library : Library)

/-- `tostring` of the result of a substitution. -/
def resultText : Option (List Char) → List Char
  | none => "nil".toList
  | some text => text

/-- `tostring` of what a group captured. -/
def groupText : Option (List Char) → List Char
  | none => "false".toList
  | some text => text

/-- One round of the loop of `replace_in_template`. -/
def replaceArg (res : Option (List Char)) (arg : List Char × Option (List Char)) :
    Option (List Char) :=
  library.reGsub (resultText res) arg.1 (groupText arg.2)

/-- `replace_in_template` -/
def replaceInTemplate (args : List (List Char)) (vals : List (Option (List Char)))
    (template : List Char) : Option (List Char) :=
  (args.zip vals).foldl (replaceArg library) (some template)

/-- What `match` returns for a request that matches. -/
structure Rewritten where
  uri : Option (List Char)
  params : List (List Char)
  vals : List (List Char)
  deriving DecidableEq, Repr

namespace NamedArgsMatcher

variable (self : NamedArgsMatcher) (request : Request)

/-- What the rule captures of a request that matches. -/
def captures : Option (List (Option (List Char))) :=
  if isMatchMethods request.method self.methods then
    (library.reMatch request.path self.regexRule).filter fun captured =>
      self.namedArgs.length = captured.length
  else none

/-- The text that is made from the template for a request that matches. -/
def replacedTemplate : Option (Option (List Char)) :=
  (self.captures library request).map fun captured =>
    replaceInTemplate library self.namedArgs captured self.template

/-- `_M:match` -/
def matchPath : Option Rewritten :=
  (self.replacedTemplate library request).map fun replaced =>
    let (uri, rawParams) := uriAndParamsFromTemplate (resultText replaced)
    let (params, vals) := stringParamsToTables rawParams
    { uri, params, vals }

end NamedArgsMatcher

/-! ## The parameters that are kept -/

/-- A query parameter without the characters that separate parameters. -/
structure Parameter where
  name : List Char
  value : List Char
  name_free : '&' ∉ name ∧ '=' ∉ name ∧ '?' ∉ name
  value_free : '&' ∉ value ∧ '=' ∉ value ∧ '?' ∉ value

def Parameter.text (parameter : Parameter) : List Char :=
  parameter.name ++ '=' :: parameter.value

def queryText : List Parameter → List Char
  | [] => []
  | [parameter] => parameter.text
  | parameter :: parameters => parameter.text ++ '&' :: queryText parameters

section Parameters

variable {separator : Char} {piece : List Char}

theorem splitFrom_free (free : separator ∉ piece) (separators : Nat) (before : List Char) :
    splitFrom separator separators before piece = [before ++ piece] := by
  induction piece generalizing before with
  | nil =>
      rw [List.append_nil]
      cases separators <;> rfl
  | cons c piece ih =>
      obtain ⟨other, others⟩ := not_or.mp (mt List.mem_cons.mpr free)
      cases separators with
      | zero => rfl
      | succ separators =>
          unfold splitFrom
          rw [if_neg (Ne.symm other), ih others, List.append_assoc, List.singleton_append]

theorem splitFrom_append (free : separator ∉ piece) (separators : Nat)
    (before rest : List Char) :
    splitFrom separator (separators + 1) before (piece ++ separator :: rest) =
      (before ++ piece) :: splitFrom separator separators [] rest := by
  induction piece generalizing before with
  | nil =>
      rw [List.append_nil]
      exact if_pos rfl
  | cons c piece ih =>
      obtain ⟨other, others⟩ := not_or.mp (mt List.mem_cons.mpr free)
      refine (if_neg (Ne.symm other)).trans ((ih others _).trans ?_)
      rw [List.append_assoc, List.singleton_append]

theorem split_free (free : separator ∉ piece) (maxMatches : Nat) :
    split piece separator maxMatches = [piece] :=
  splitFrom_free free _ []

/-- The first piece, and whatever comes after it. -/
theorem split_two (free : separator ∉ piece) (rest : List Char) :
    split (piece ++ separator :: rest) separator 2 = [piece, rest] := by
  have first := splitFrom_append free 0 [] rest
  have last : splitFrom separator 0 [] rest = [rest] := by cases rest <;> rfl
  rw [last] at first
  exact first

theorem Parameter.ampersand_not_mem (parameter : Parameter) : '&' ∉ parameter.text := by
  unfold Parameter.text
  simp [parameter.name_free.1, parameter.value_free.1]

theorem insertParam_text (tables : List (List Char) × List (List Char)) (parameter : Parameter) :
    insertParam tables parameter.text =
      (tables.1 ++ [parameter.name], tables.2 ++ [parameter.value]) := by
  unfold insertParam Parameter.text
  rw [split_two parameter.name_free.2.1]
  rfl

theorem length_insertParam_le (tables : List (List Char) × List (List Char))
    (param : List Char) : (insertParam tables param).1.length ≤ tables.1.length + 1 := by
  unfold insertParam
  rw [List.length_append]
  cases (split param '=' 2)[0]? <;> simp

variable (library : Library) (self : NamedArgsMatcher) (request : Request)

/-- The lists that are made of a query. -/
theorem stringParamsToTables_queryText {parameters : List Parameter} (nonempty : parameters ≠ []) :
    stringParamsToTables (some (queryText parameters)) =
        (parameters.map Parameter.name, parameters.map Parameter.value) ↔
      parameters.length ≤ 2 := by
  match parameters with
  | [] => exact absurd rfl nonempty
  | [parameter] =>
      refine iff_of_true ?_ (by simp)
      change (split parameter.text '&' 2).foldl insertParam _ = _
      rw [split_free parameter.ampersand_not_mem]
      exact insertParam_text _ _
  | [first, second] =>
      refine iff_of_true ?_ (by simp)
      change (split (first.text ++ '&' :: second.text) '&' 2).foldl insertParam _ = _
      rw [split_two first.ampersand_not_mem]
      change insertParam (insertParam _ first.text) second.text = _
      rw [insertParam_text, insertParam_text]
      rfl
  | first :: second :: third :: parameters =>
      refine iff_of_false (fun same => ?_) (by simp)
      have shorter : (stringParamsToTables
          (some (queryText (first :: second :: third :: parameters)))).1.length ≤ 2 := by
        unfold stringParamsToTables
        change ((split (first.text ++ '&' :: _) '&' 2).foldl insertParam _).1.length ≤ 2
        rw [split_two first.ampersand_not_mem]
        exact (length_insertParam_le _ _).trans
          (Nat.succ_le_succ (length_insertParam_le ([], []) first.text))
      rw [same, List.length_map] at shorter
      exact absurd shorter (by simp)

/-- Of a template that was rewritten, `match` returns all of the parameters exactly when there are
not more than two. -/
theorem matchPath_queryText_iff (uri : List Char) (uriFree : '?' ∉ uri)
    (parameters : List Parameter) (nonempty : parameters ≠ [])
    (rewritten : self.replacedTemplate library request =
      some (some (uri ++ '?' :: queryText parameters))) :
    (∃ result ∈ self.matchPath library request,
        result.params = parameters.map Parameter.name ∧
          result.vals = parameters.map Parameter.value) ↔
      parameters.length ≤ 2 := by
  rw [← stringParamsToTables_queryText nonempty]
  unfold NamedArgsMatcher.matchPath uriAndParamsFromTemplate
  rw [rewritten]
  dsimp only [Option.map_some, resultText]
  rw [split_two uriFree]
  simp [Prod.ext_iff]

end Parameters

section Examples

/-- The library as far as the examples need it: a rule with one argument after a slash, and names
that are expressions for themselves. -/
def plainLibrary : Library where
  reMatch subject _ :=
    match subject with
    | '/' :: captured => some [some captured]
    | _ => none
  reGsub subject expression replacement :=
    (Replacement.compile replacement).map fun pieces =>
      Substitution.substitute braces
        [⟨expression.tail.dropLast, Replacement.expand [expression] pieces⟩] subject

def accountMatcher (template : String) : NamedArgsMatcher :=
  new "/{account}".toList template.toList none

def accountRequest : Request := ⟨"GET", "/12".toList⟩

/-- Two parameters, a captured one and a fixed one, both arrive. -/
theorem matchPath_queryText_view :
    ∃ result ∈ (accountMatcher "/v2?account={account}&view=full").matchPath plainLibrary
        accountRequest,
      result.params = ["account".toList, "view".toList] ∧
        result.vals = ["12".toList, "full".toList] :=
  (matchPath_queryText_iff plainLibrary (accountMatcher "/v2?account={account}&view=full")
    accountRequest "/v2".toList (by decide)
    [⟨"account".toList, "12".toList, by decide, by decide⟩,
      ⟨"view".toList, "full".toList, by decide, by decide⟩] (by decide) (by decide)).mpr (by decide)

/-- The third parameter is not a parameter, and the value of the second one has it at its end. -/
theorem not_keeps_parameters :
    (accountMatcher "/v2?account={account}&a=1&b=2").replacedTemplate plainLibrary accountRequest =
        some (some "/v2?account=12&a=1&b=2".toList) ∧
      ¬ ∃ result ∈ (accountMatcher "/v2?account={account}&a=1&b=2").matchPath plainLibrary
          accountRequest,
        result.params = ["account".toList, "a".toList, "b".toList] ∧
          result.vals = ["12".toList, "1".toList, "2".toList] := by
  refine ⟨by decide, ?_⟩
  rintro ⟨result, member, params, _⟩
  have short : ((accountMatcher "/v2?account={account}&a=1&b=2").matchPath plainLibrary
      accountRequest).map Rewritten.params = some ["account".toList, "a".toList] := by decide
  rw [member, Option.map_some, params] at short
  exact absurd short (by decide)

end Examples

end Apicast.RewriteUrlCaptures
