import Apicast.Foundation.UriEscape
import Apicast.MappingRulePatterns
import Apicast.RoleDecisions

/-!
# Which requests a pattern covers

The role check, the claim check and the mapping rules of the proxy match the same patterns. The
claim check and the proxy escape the path of a request first, the role check does not. A scope of
the role check without methods is for all of them, a rule of the claim check without methods is for
none.
-/

namespace Apicast.PatternCoverage

open Foundation
open JwtClaimCheck (Library PolicyRule mappingRuleMatches anyMethod regexpify)
open KeycloakRoleCheck (Context)

variable {Number : Type*} (library : Library (Context Number)) (context : Context Number)

/-- The characters of a text of the gateway are bytes. -/
def IsBytes (text : String) : Prop := ∀ c ∈ text.toList, c.toNat < 256

/-- A request, with the path of the upstream that it is routed to, if it is. -/
structure RoutedRequest where
  uri : String
  method : String
  routeUpstream : Option (Option String)
  uriBytes : IsBytes uri
  upstreamBytes : ∀ path, routeUpstream = some (some path) → IsBytes path

/-- `context:get_uri` -/
def getUri (request : RoutedRequest) : String :=
  match request.routeUpstream with
  | some path => path.getD "/"
  | none => request.uri

/-- The role check considers a request covered. -/
def roleCheckCovers (pattern : String) (methods : List String) (request : RoutedRequest) : Bool :=
  KeycloakRoleCheck.covers library context ⟨request.uri, request.method⟩
    (KeycloakRoleCheck.buildScope
      { realmRoles := none
        clientRoles := none
        resource := pattern
        resourceType := none
        methods := some methods })

/-- `mapping_rule_match` of `is_rule_denied_request` -/
def mappingRuleMatch (rule : PolicyRule) (request : JwtClaimCheck.Request (Context Number)) :
    Bool :=
  rule.methods.any fun method =>
    mappingRuleMatches library method
      (TemplateString.render library.toTemplateEngine rule.resource rule.resourceType
        request.context)
      request.method (library.escapeUri request.uri)

/-- The claim check considers a request covered. -/
def claimCheckCovers (pattern : String) (methods : List String) (request : RoutedRequest) : Bool :=
  mappingRuleMatch library
    { condition := none
      methods := (some methods).getD JwtClaimCheck.defaultAllowedMethods
      resource := pattern
      resourceType := JwtClaimCheck.defaultTemplateType }
    { context
      jwt := context
      uri := getUri request
      method := request.method }

/-- Some mapping rule of the proxy with this pattern and one of the methods matches. -/
def proxyCovers (pattern : String) (methods : List String) (request : RoutedRequest) : Bool :=
  methods.any fun method =>
    mappingRuleMatches library method pattern request.method (library.escapeUri request.uri)

/-- The policies agree on whether a pattern covers a request. -/
def Agree (pattern : String) (methods : List String) (request : RoutedRequest) : Prop :=
  (roleCheckCovers library context pattern methods request = true ↔
      claimCheckCovers library context pattern methods request = true) ∧
    (roleCheckCovers library context pattern methods request = true ↔
      proxyCovers library pattern methods request = true)

/-! ## Patterns of hexadecimal escapes -/

/-- `\xhh` -/
def hexEscape (c : Char) : List Char :=
  ['\\', 'x', UriEscape.hexDigit (c.toNat / 16), UriEscape.hexDigit (c.toNat % 16)]

def hexText (text : String) : String := String.ofList (text.toList.flatMap hexEscape)

/-- The expressions that `regexpify` substitutes. -/
def substituted : List String := ["\\/\\/+", "\\?.*", "\\\x7b.+?\\\x7d", "\\."]

/-- What the libraries do with hexadecimal escapes. -/
structure Documented : Prop where
  /-- None of the expressions occurs in them. -/
  unmatched : ∀ text, IsBytes text → ∀ expression ∈ substituted, ∀ replacement,
    library.gsub (hexText text) expression replacement = hexText text
  /-- They stand for the characters with these codes. -/
  hexadecimal : ∀ text subject, IsBytes text → IsBytes subject →
    (library.isMatch subject ("^" ++ hexText text) = true ↔ text.toList <+: subject.toList)
  bytes : ∀ text, IsBytes text → IsBytes (library.escapeUri text)

variable {library context} {methods : List String} {request : RoutedRequest} {text : String}

/-- Nothing in an escaped text is replaced. -/
theorem regexpify_hexText (documented : Documented library) (bytes : IsBytes text) :
    regexpify library (hexText text) = hexText text := by
  have same := documented.unmatched text bytes
  unfold regexpify
  simp only [same _ (by decide : "\\/\\/+" ∈ substituted),
    same _ (by decide : "\\?.*" ∈ substituted),
    same _ (by decide : "\\\x7b.+?\\\x7d" ∈ substituted),
    same _ (by decide : "\\." ∈ substituted)]

/-- The pattern of hexadecimal escapes of a text matches the paths that begin with it. -/
theorem mappingRuleMatches_hexText (documented : Documented library) (bytes : IsBytes text)
    {uri : String} (path : IsBytes uri) {httpMethod method : String} :
    mappingRuleMatches library httpMethod (hexText text) method uri = true ↔
      (httpMethod = anyMethod ∨ httpMethod = method) ∧ text.toList <+: uri.toList := by
  unfold mappingRuleMatches
  rw [regexpify_hexText documented bytes, Bool.and_eq_true,
    documented.hexadecimal text uri bytes path, Bool.or_eq_true, decide_eq_true_eq,
    decide_eq_true_eq]

theorem roleCheckCovers_of_ne_nil (present : methods ≠ []) (pattern : String) :
    roleCheckCovers library context pattern methods request =
      methods.any fun method =>
        mappingRuleMatches library method pattern request.method request.uri := by
  obtain ⟨method, others, rfl⟩ := List.exists_cons_of_ne_nil present
  rfl

theorem roleCheckCovers_nil (pattern : String) :
    roleCheckCovers library context pattern [] request =
      mappingRuleMatches library anyMethod pattern request.method request.uri :=
  Bool.or_false _

/-- The claim check escapes the URI before it is matched. -/
theorem claimCheckCovers_eq (pattern : String) :
    claimCheckCovers library context pattern methods request =
      methods.any fun method =>
        mappingRuleMatches library method pattern request.method
          (library.escapeUri (getUri request)) := rfl

/-- Paths that every pattern covers alike for one of the methods are the same. -/
theorem eq_of_covered_alike (documented : Documented library) {method path other : String}
    (member : method ∈ methods) (pathBytes : IsBytes path) (otherBytes : IsBytes other)
    (alike : ∀ pattern,
      (methods.any (fun own => mappingRuleMatches library own pattern method path) = true ↔
        methods.any (fun own => mappingRuleMatches library own pattern method other) = true)) :
    path = other := by
  have covered {text uri : String} (bytes : IsBytes text) (uriBytes : IsBytes uri) :
      methods.any (fun own => mappingRuleMatches library own (hexText text) method uri) = true ↔
        text.toList <+: uri.toList := by
    simp only [List.any_eq_true, mappingRuleMatches_hexText documented bytes uriBytes]
    exact ⟨fun ⟨_, _, _, begins⟩ => begins, fun begins => ⟨method, member, .inr rfl, begins⟩⟩
  have first := (covered pathBytes otherBytes).mp
    ((alike _).mp ((covered pathBytes pathBytes).mpr List.prefix_rfl))
  have second := (covered otherBytes pathBytes).mp
    ((alike _).mpr ((covered otherBytes otherBytes).mpr List.prefix_rfl))
  exact String.toList_inj.mp (first.eq_of_length_le second.length_le)

theorem isBytes_getUri (request : RoutedRequest) : IsBytes (getUri request) := by
  unfold getUri
  split
  · rename_i path routed
    cases path with
    | none => exact List.forall_mem_singleton.mpr (by decide)
    | some path => exact request.upstreamBytes path routed
  · exact request.uriBytes

/-- The policies agree on a request for every pattern and method exactly when there are methods and
escaping leaves the path of the request as it is, which the upstream that it is routed to has as
well. -/
theorem agree_iff (library : Library (Context Number)) (documented : Documented library)
    (context : Context Number) (methods : List String) (request : RoutedRequest) :
    (∀ pattern method, Agree library context pattern methods { request with method }) ↔
      methods ≠ [] ∧ library.escapeUri request.uri = request.uri ∧
        library.escapeUri (getUri request) = request.uri := by
  have target (method : String) : getUri { request with method } = getUri request := rfl
  constructor
  · intro agree
    have present : methods ≠ [] := by
      rintro rfl
      have everything := (agree (hexText "") "GET").2
      rw [roleCheckCovers_nil] at everything
      have empty : IsBytes "" := nofun
      have covered := everything.mp ((mappingRuleMatches_hexText documented empty
        request.uriBytes).mpr ⟨.inl rfl, List.nil_prefix⟩)
      cases covered
    obtain ⟨method, member⟩ := List.exists_mem_of_ne_nil methods present
    refine ⟨present, ?_, ?_⟩
    · refine eq_of_covered_alike documented member (documented.bytes _ request.uriBytes)
        request.uriBytes fun pattern => ?_
      have both := (agree pattern method).2
      rw [roleCheckCovers_of_ne_nil present] at both
      exact both.symm
    · refine eq_of_covered_alike documented member (documented.bytes _ (isBytes_getUri request))
        request.uriBytes fun pattern => ?_
      have both := (agree pattern method).1
      rw [roleCheckCovers_of_ne_nil present, claimCheckCovers_eq, target] at both
      exact both.symm
  · rintro ⟨present, escaped, routed⟩ pattern method
    unfold Agree
    rw [roleCheckCovers_of_ne_nil present, claimCheckCovers_eq, target, routed]
    unfold proxyCovers
    dsimp only
    rw [escaped]
    exact ⟨.rfl, .rfl⟩

/-! ## A library that behaves as documented -/

section Examples

open MappingRulePatterns (collapseSlashes removeQuery replacePlaceholders escapeDots
  isEscapedCharacter)

/-- The character of an escape in a path. -/
def escapeCharacter (c : Char) : List Char :=
  if isEscapedCharacter c && c != '%' then [c]
  else ['%', UriEscape.hexDigit (c.toNat / 16), UriEscape.hexDigit (c.toNat % 16)]

def digitValue (c : Char) : Nat := if c.isDigit then c.toNat - 48 else c.toNat - 55

/-- The text that an expression of hexadecimal escapes stands for. -/
def unhex : List Char → Option (List Char)
  | [] => some []
  | '\\' :: 'x' :: high :: low :: rest =>
      (unhex rest).map (Char.ofNat (16 * digitValue high + digitValue low) :: ·)
  | _ => none

/-- The substitutions, the escaping and the matching of expressions, without Liquid. -/
def pcreLibrary : Library (Context Int) where
  liquid := fun _ => none
  isMatch := fun subject expression =>
    match unhex expression.toList.tail with
    | some text => text.isPrefixOf subject.toList
    | none => RegexSyntax.reMatch subject.toList expression.toList
  gsub := fun subject expression _ =>
    if expression = "\\/\\/+" then String.ofList (collapseSlashes subject.toList)
    else if expression = "\\?.*" then String.ofList (removeQuery false subject.toList)
    else if expression = "\\." then String.ofList (escapeDots subject.toList)
    else String.ofList (replacePlaceholders 0 subject.toList)
  escapeUri := fun uri => String.ofList (uri.toList.flatMap escapeCharacter)

def plainRequest : RoutedRequest where
  uri := "/ab"
  method := "GET"
  routeUpstream := none
  uriBytes := List.all_iff_forall_prop.mp (by decide)
  upstreamBytes := nofun

/-- A request that is not routed. -/
def spacedRequest : RoutedRequest where
  uri := "/a b"
  method := "GET"
  routeUpstream := none
  uriBytes := List.all_iff_forall_prop.mp (by decide)
  upstreamBytes := nofun

/-- The pattern `/a%20b` covers the request for the claim check and the proxy only. -/
theorem not_agree_spaced :
    ¬ Agree pcreLibrary ⟨none, none, none⟩ "/a%20b" ["GET"] spacedRequest := by
  intro agree
  exact absurd (agree.2.mpr (by decide)) (by decide)

theorem digitValue_hexDigit : ∀ value : Fin 16, digitValue (UriEscape.hexDigit value) = value := by
  decide

theorem hexDigit_not_mark : ∀ value : Fin 16,
    UriEscape.hexDigit value ∉ ['/', '?', '\x7b', '.'] := by decide

theorem hexDigit_lt : ∀ value : Fin 16, (UriEscape.hexDigit value).toNat < 256 := by decide

/-- Bytes are read back from their escapes. -/
theorem unhex_flatMap {text : List Char} (bytes : ∀ c ∈ text, c.toNat < 256) :
    unhex (text.flatMap hexEscape) = some text := by
  induction text with
  | nil => rfl
  | cons c text ih =>
      obtain ⟨own, others⟩ := List.forall_mem_cons.mp bytes
      have high : digitValue (UriEscape.hexDigit (c.toNat / 16)) = c.toNat / 16 :=
        digitValue_hexDigit ⟨c.toNat / 16, by omega⟩
      have low : digitValue (UriEscape.hexDigit (c.toNat % 16)) = c.toNat % 16 :=
        digitValue_hexDigit ⟨c.toNat % 16, by omega⟩
      change (unhex (text.flatMap hexEscape)).map _ = _
      rw [ih others, high, low, Nat.div_add_mod, Char.ofNat_toNat]
      rfl

/-- The escapes have none of the marks in them that are substituted in patterns. -/
theorem mark_not_mem {text : List Char} (bytes : ∀ c ∈ text, c.toNat < 256) {mark : Char}
    (marks : mark ∈ ['/', '?', '\x7b', '.']) : mark ∉ text.flatMap hexEscape := by
  intro member
  obtain ⟨c, own, inside⟩ := List.mem_flatMap.mp member
  have byte := bytes c own
  unfold hexEscape at inside
  simp only [List.mem_cons, List.not_mem_nil, or_false] at inside
  rcases inside with rfl | rfl | rfl | rfl
  · exact absurd marks (by decide)
  · exact absurd marks (by decide)
  · exact hexDigit_not_mark ⟨c.toNat / 16, by omega⟩ marks
  · exact hexDigit_not_mark ⟨c.toNat % 16, by omega⟩ marks

theorem replacePlaceholders_of_not_mem {pattern : List Char} (absent : '\x7b' ∉ pattern) :
    replacePlaceholders 0 pattern = pattern := by
  induction pattern with
  | nil => rfl
  | cons c rest ih =>
      obtain ⟨other, others⟩ := not_or.mp (mt List.mem_cons.mpr absent)
      rw [MappingRulePatterns.replacePlaceholders_literal (Ne.symm other), ih others]

theorem escapeDots_of_not_mem {pattern : List Char} (absent : '.' ∉ pattern) :
    escapeDots pattern = pattern := by
  unfold escapeDots
  refine (List.flatMap_congr fun c member => ?_).trans (List.flatMap_singleton' pattern)
  exact if_neg (ne_of_mem_of_not_mem member absent)

theorem documented_pcreLibrary : Documented pcreLibrary where
  unmatched := by
    intro text bytes expression listed replacement
    have absent {mark : Char} (marks : mark ∈ ['/', '?', '\x7b', '.']) :
        mark ∉ (hexText text).toList := by
      rw [hexText, String.toList_ofList]
      exact mark_not_mem bytes marks
    have single : ¬ ['/', '/'] <:+: (hexText text).toList := fun inside =>
      absent (by decide) (inside.subset List.mem_cons_self)
    simp only [substituted, List.mem_cons, List.not_mem_nil, or_false] at listed
    rcases listed with rfl | rfl | rfl | rfl
    · simp [pcreLibrary, MappingRulePatterns.collapseSlashes_eq single]
    · simp [pcreLibrary, MappingRulePatterns.removeQuery_eq (absent (by decide))]
    · simp [pcreLibrary, replacePlaceholders_of_not_mem (absent (by decide))]
    · simp [pcreLibrary, escapeDots_of_not_mem (absent (by decide))]
  hexadecimal := by
    intro text subject bytes _
    have tail : ("^" ++ hexText text).toList.tail = text.toList.flatMap hexEscape := by
      simp only [String.toList_append, hexText, String.toList_ofList]
      rfl
    simp only [pcreLibrary, tail, unhex_flatMap bytes]
    exact List.isPrefixOf_iff_prefix
  bytes := by
    intro text bytes c member
    change c ∈ (String.ofList _).toList at member
    rw [String.toList_ofList] at member
    obtain ⟨d, own, inside⟩ := List.mem_flatMap.mp member
    have byte := bytes d own
    unfold escapeCharacter at inside
    split at inside
    · rw [List.mem_singleton.mp inside]
      exact byte
    · simp only [List.mem_cons, List.not_mem_nil, or_false] at inside
      rcases inside with rfl | rfl | rfl
      · decide
      · exact hexDigit_lt ⟨d.toNat / 16, by omega⟩
      · exact hexDigit_lt ⟨d.toNat % 16, by omega⟩

/-- With the documented behaviour of the libraries, the policies agree on `/ab` and GET. -/
theorem agree_iff_plain :
    Agree pcreLibrary ⟨none, none, none⟩ "/ab" ["GET"] { plainRequest with method := "GET" } :=
  (agree_iff pcreLibrary documented_pcreLibrary ⟨none, none, none⟩ ["GET"] plainRequest).mpr
    ⟨by decide, by decide, by decide⟩ "/ab" "GET"

end Examples

end Apicast.PatternCoverage
