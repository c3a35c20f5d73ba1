import Apicast.Batcher.CachedAuthKey

/-!
# Reading back the keys of batched reports

A key is read back with the expression of the first label that is found anywhere in it, so a
value that contains a label is taken for the label. The expression of an application with a key
also reads the identifier up to the last place where a key of the application can start.
-/

namespace Apicast.Batcher

open Foundation

section Labels

/-- The name of a field, as it is written before the colon. -/
def KeyType.name : KeyType → String
  | .userKey => "user_key"
  | .accessToken => "access_token"
  | .appKey => "app_key"
  | .appId => "app_id"

/-- What is looked for in a key. -/
def KeyType.label (type : KeyType) : List Char := type.name.toList ++ [':']

/-- The types whose labels are looked for before the one of this type. -/
def KeyType.earlier : KeyType → List KeyType
  | .userKey => []
  | .accessToken => [.userKey]
  | .appKey => [.userKey, .accessToken]
  | .appId => [.userKey, .accessToken, .appKey]

theorem detectCredType_eq_some {key : String} {type : KeyType} :
    detectCredType key = some type ↔ type.label <:+: key.toList ∧
      ∀ earlier ∈ type.earlier, ¬ earlier.label <:+: key.toList := by
  have search : detectCredType key =
      if KeyType.userKey.label <:+: key.toList then some .userKey
      else if KeyType.accessToken.label <:+: key.toList then some .accessToken
      else if KeyType.appKey.label <:+: key.toList then some .appKey
      else if KeyType.appId.label <:+: key.toList then some .appId
      else none := rfl
  rw [search]
  cases type <;>
    simp only [KeyType.earlier, List.forall_mem_cons, List.not_mem_nil, IsEmpty.forall_iff,
      implies_true, and_true] <;>
    split_ifs <;>
    simp only [Option.some.injEq, reduceCtorEq, not_true_eq_false, not_false_eq_true, and_self,
      and_false, false_and, *]

/-- The fields of the credentials, in the order in which a key names them. -/
def Credentials.fields : Credentials → List (KeyType × String)
  | { userKey := some userKey, .. } => [(.userKey, userKey)]
  | { accessToken := some accessToken, .. } => [(.accessToken, accessToken)]
  | { appId := some appId, appKey := some appKey, .. } => [(.appId, appId), (.appKey, appKey)]
  | { appId, .. } => [(.appId, appId.getD "")]

/-- The values of the credentials. -/
def Credentials.values (creds : Credentials) : List String := creds.fields.map Prod.snd

/-- The form of the credentials. -/
def Credentials.keyType : Credentials → KeyType
  | { userKey := some _, .. } => .userKey
  | { accessToken := some _, .. } => .accessToken
  | { appId := some _, appKey := some _, .. } => .appKey
  | _ => .appId

variable {serviceId metric : String} {creds : Credentials}

/-- A key lists its fields with commas between them. -/
theorem Credentials.Supported.keyForBatchedReport_eq (supported : creds.Supported) :
    keyForBatchedReport serviceId creds metric = Delimited.joinAll ','
      ((("service_id", serviceId) :: (creds.fields.map fun field => (field.1.name, field.2)) ++
        [("metric", metric)]).map fun field => Delimited.join ':' field.1 field.2) := by
  have comma : String.singleton ',' = "," := by decide
  have colon : String.singleton ':' = ":" := by decide
  have service : "service_id:" = "service_id" ++ ":" := by decide
  have metricLabel : ",metric:" = "," ++ ("metric" ++ ":") := by decide
  have userLabel : "user_key:" = "user_key" ++ ":" := by decide
  have tokenLabel : "access_token:" = "access_token" ++ ":" := by decide
  have idLabel : "app_id:" = "app_id" ++ ":" := by decide
  have keyLabel : ",app_key:" = "," ++ ("app_key" ++ ":") := by decide
  cases supported <;>
    simp only [fields, KeyType.name, keyForBatchedReport_def, credsPartInKey, Option.getD_some,
      List.map_cons, List.map_nil, List.cons_append, List.nil_append, Delimited.joinAll,
      Delimited.join, comma, colon, service, metricLabel, userLabel, tokenLabel, idLabel, keyLabel,
      Option.map_some, String.append_assoc]

/-- A label occurs in a field at the end of its name, or inside of its value. -/
theorem KeyType.label_infix_join (type : KeyType) {name : String} (value : String)
    (free : ':' ∉ name.toList) :
    type.label <:+: (Delimited.join ':' name value).toList ↔
      type.name.toList <:+ name.toList ∨ type.label <:+: value.toList := by
  rw [Delimited.toList_join]
  apply Delimited.concat_infix _ free
  cases type <;> decide

theorem KeyType.label_infix_field (type : KeyType) (field : KeyType × String) :
    type.label <:+: (Delimited.join ':' field.1.name field.2).toList ↔
      type = field.1 ∨ type.label <:+: field.2.toList := by
  rw [type.label_infix_join field.2 (by cases field.1 <;> decide)]
  apply or_congr_left
  generalize field.1 = other
  cases type <;> cases other <;> decide

/-- The label of a type occurs in a key when the credentials have such a field, or inside of a
value. -/
theorem Credentials.Supported.label_infix (supported : creds.Supported)
    (service : ∀ char ∈ serviceId.toList, isWordOrDash char) (type : KeyType) :
    type.label <:+: (keyForBatchedReport serviceId creds metric).toList ↔
      type ∈ creds.fields.map Prod.fst ∨
        ∃ value ∈ metric :: creds.values, type.label <:+: value.toList := by
  have comma : ',' ∉ type.label := by
    cases type <;> decide
  have inService : ¬ type.label <:+: (Delimited.join ':' "service_id" serviceId).toList := by
    rw [type.label_infix_join serviceId (by decide), not_or]
    refine ⟨by cases type <;> decide, ?_⟩
    intro inside
    have colon := service ':' (inside.subset (List.mem_append_right _ List.mem_cons_self))
    revert colon
    decide
  have inMetric : type.label <:+: (Delimited.join ':' "metric" metric).toList ↔
      type.label <:+: metric.toList := by
    rw [type.label_infix_join metric (by decide), or_iff_right]
    cases type <;> decide
  rw [supported.keyForBatchedReport_eq, List.cons_append, List.map_cons, List.map_append,
    List.map_map, List.map_singleton, Delimited.infix_joinAll comma (List.cons_ne_nil _ _)]
  constructor
  · rintro ⟨_, member, inside⟩
    rcases List.mem_cons.mp member with rfl | member
    · exact absurd inside inService
    · rcases List.mem_append.mp member with member | last
      · obtain ⟨field, listed, rfl⟩ := List.mem_map.mp member
        rcases (type.label_infix_field field).mp inside with rfl | inValue
        · exact .inl (List.mem_map_of_mem listed)
        · exact .inr ⟨field.2, List.mem_cons_of_mem _ (List.mem_map_of_mem listed), inValue⟩
      · rw [List.mem_singleton.mp last] at inside
        exact .inr ⟨metric, List.mem_cons_self, inMetric.mp inside⟩
  · rintro (own | ⟨value, member, inside⟩)
    · obtain ⟨field, member, rfl⟩ := List.mem_map.mp own
      refine ⟨Delimited.join ':' field.1.name field.2, ?_,
        (field.1.label_infix_field field).mpr (.inl rfl)⟩
      exact List.mem_cons_of_mem _ (List.mem_append_left _ (List.mem_map.mpr ⟨field, member, rfl⟩))
    · rcases List.mem_cons.mp member with rfl | member
      · refine ⟨_, ?_, inMetric.mpr inside⟩
        exact List.mem_cons_of_mem _ (List.mem_append_right _ List.mem_cons_self)
      · obtain ⟨field, listed, rfl⟩ := List.mem_map.mp member
        refine ⟨Delimited.join ':' field.1.name field.2, ?_,
          (type.label_infix_field field).mpr (.inr inside)⟩
        exact List.mem_cons_of_mem _
          (List.mem_append_left _ (List.mem_map.mpr ⟨field, listed, rfl⟩))

/-- No label that is looked for before the one of the credentials is inside of a value. -/
def Unlabelled (creds : Credentials) (metric : String) : Prop :=
  ∀ earlier ∈ creds.keyType.earlier, ∀ value ∈ metric :: creds.values,
    ¬ earlier.label <:+: value.toList

instance (creds : Credentials) (metric : String) : Decidable (Unlabelled creds metric) :=
  inferInstanceAs (Decidable (∀ earlier ∈ creds.keyType.earlier, ∀ value ∈ metric :: creds.values,
    ¬ earlier.label <:+: value.toList))

/-- The form of the credentials is recognised when no value has an earlier label in it. -/
theorem Credentials.Supported.detectCredType_eq (supported : creds.Supported)
    (service : ∀ char ∈ serviceId.toList, isWordOrDash char) :
    detectCredType (keyForBatchedReport serviceId creds metric) = some creds.keyType ↔
      Unlabelled creds metric := by
  have own : creds.keyType ∈ creds.fields.map Prod.fst := by
    cases supported <;> simp [keyType, fields]
  have others : ∀ earlier ∈ creds.keyType.earlier, earlier ∉ creds.fields.map Prod.fst := by
    cases supported <;> simp [keyType, KeyType.earlier, fields]
  rw [detectCredType_eq_some, and_iff_right ((supported.label_infix service _).mpr (.inl own))]
  apply forall₂_congr
  intro earlier member
  rw [supported.label_infix service, or_iff_right (others earlier member)]
  simp only [not_exists, not_and]

end Labels

section Fields

variable {serviceId value metric appId appKey : String}

def metricMarker : Marker := ⟨',', "metric:", by decide⟩

/-- The value can be read from a key. -/
structure Readable (value : String) : Prop where
  filled : value ≠ ""
  unspaced : ∀ char ∈ value.toList, isNotSpace char

theorem readable_iff : Readable value ↔ value ≠ "" ∧ value.toList.all isNotSpace = true :=
  ⟨fun readable => ⟨readable.filled, List.all_eq_true.mpr readable.unspaced⟩,
    fun ⟨filled, unspaced⟩ => ⟨filled, List.all_eq_true.mp unspaced⟩⟩

instance (value : String) : Decidable (Readable value) := decidable_of_iff _ readable_iff.symm

theorem matchStart_metric (readable : Readable metric) :
    CapturePattern.matchStart [.capture isNotSpace] metric.toList = some [metric] := by
  rw [← List.append_nil metric.toList, CapturePattern.matchStart_capture_append]
  refine ⟨readable.filled, readable.unspaced, rfl, ?_⟩
  intro more remaining nonempty empty
  exact absurd (List.append_eq_nil_iff.mp empty.symm).1 nonempty

/-- The last value of the credentials ends at the marker of the metric. -/
theorem matchStart_value (readable : Readable value) (metricReadable : Readable metric)
    (free : metricMarker.Free metric) :
    CapturePattern.matchStart
        [.capture isNotSpace, .literal metricMarker.text, .capture isNotSpace]
        (value.toList ++ (metricMarker.text.toList ++ metric.toList)) = some [value, metric] := by
  rw [CapturePattern.matchStart_capture_marker, matchStart_metric metricReadable]
  refine ⟨readable.filled, readable.unspaced, rfl, ?_⟩
  intro before remaining inside _
  rw [Marker.toList_text] at inside
  exact absurd ⟨before, remaining, by rw [inside, List.append_assoc]⟩ free

/-- What follows a marker in the key of an application, with something after it, can be read. -/
theorem exists_value_of_infix (keyReadable : Readable appKey)
    (inside : appKeyMarker.text.toList <:+: appKey.toList.dropLast) :
    ∃ before value, Readable value ∧
      appKey.toList = before ++ (appKeyMarker.text.toList ++ value.toList) := by
  obtain ⟨before, after, inside⟩ := inside
  have nonempty : appKey.toList ≠ [] := fun empty =>
    keyReadable.filled (String.toList_eq_nil_iff.mp empty)
  obtain ⟨value, named⟩ : ∃ value : String, value.toList =
      after ++ [appKey.toList.getLast nonempty] :=
    ⟨String.ofList _, String.toList_ofList⟩
  have whole : appKey.toList = before ++ (appKeyMarker.text.toList ++ value.toList) := by
    rw [← List.dropLast_append_getLast nonempty, ← inside, named]
    simp only [List.append_assoc]
  refine ⟨before, value, ⟨?_, ?_⟩, whole⟩
  · rintro rfl
    exact absurd named.symm (List.append_ne_nil_of_right_ne_nil _ (List.cons_ne_nil _ _))
  · intro char member
    apply keyReadable.unspaced
    rw [whole]
    exact List.mem_append_right _ (List.mem_append_right _ member)

/-- Without such a marker, nothing can be read behind a marker that is found later. -/
theorem matchStart_behind (free : metricMarker.Free metric)
    (closed : ¬ appKeyMarker.text.toList <:+: appKey.toList.dropLast)
    {before remaining : List Char}
    (behind : appKey.toList ++ (metricMarker.text.toList ++ metric.toList) =
      before ++ (appKeyMarker.text.toList ++ remaining)) :
    CapturePattern.matchStart
      [.capture isNotSpace, .literal metricMarker.text, .capture isNotSpace] remaining = none := by
  have ends {rest : List Char} (nonempty : rest ≠ [])
      (whole : appKey.toList = before ++ (appKeyMarker.text.toList ++ rest)) : False := by
    apply closed
    rw [whole, ← List.append_assoc, List.dropLast_append_of_ne_nil nonempty]
    exact ⟨before, rest.dropLast, rfl⟩
  rw [Option.eq_none_iff_forall_ne_some]
  intro fields matched
  obtain ⟨run, rest, others, rfl, _, nonempty, _, remains, _⟩ :=
    CapturePattern.matchStart_capture.mp matched
  obtain ⟨last, rfl, _⟩ := CapturePattern.matchStart_literal.mp remains
  have cut : appKey.toList ++ (metricMarker.text.toList ++ metric.toList) =
      (before ++ (appKeyMarker.text.toList ++ run)) ++ (metricMarker.text.toList ++ last) := by
    rw [behind]
    simp only [List.append_assoc]
  rcases List.append_eq_append_iff.mp cut with ⟨more, longer, tail⟩ | ⟨more, whole, _⟩
  · cases more with
    | nil =>
        rw [List.append_nil] at longer
        exact ends nonempty longer.symm
    | cons letter more =>
        -- a later marker would lie in the metric
        rw [Marker.toList_text] at tail
        obtain ⟨early, inside⟩ := Delimited.exists_eq_append_of_later metricMarker.fresh
          (List.cons_ne_nil letter more) tail
        apply free
        rw [inside]
        exact ⟨early, last, by rw [List.append_assoc]; rfl⟩
  · rw [List.append_assoc, List.append_assoc] at whole
    exact ends (List.append_ne_nil_of_left_ne_nil nonempty _) whole

/-- The identifier of an application is read up to the marker before its key, unless there is
such a marker in the key with something after it. -/
theorem matchStart_app (idReadable : Readable appId) (keyReadable : Readable appKey)
    (metricReadable : Readable metric) (free : metricMarker.Free metric) :
    CapturePattern.matchStart [.capture isNotSpace, .literal appKeyMarker.text,
        .capture isNotSpace, .literal metricMarker.text, .capture isNotSpace]
        (appId.toList ++ (appKeyMarker.text.toList ++
          (appKey.toList ++ (metricMarker.text.toList ++ metric.toList)))) =
      some [appId, appKey, metric] ↔ ¬ appKeyMarker.text.toList <:+: appKey.toList.dropLast := by
  rw [CapturePattern.matchStart_capture_marker,
    matchStart_value keyReadable metricReadable free]
  constructor
  · rintro ⟨_, _, _, later⟩ inside
    obtain ⟨before, value, readable, whole⟩ := exists_value_of_infix keyReadable inside
    have none := later before (value.toList ++ (metricMarker.text.toList ++ metric.toList))
      (by rw [whole]; simp only [List.append_assoc]) ?_
    · rw [matchStart_value readable metricReadable free] at none
      cases none
    · intro char member
      rcases List.mem_append.mp member with mark | early
      · have accepted : ∀ char ∈ appKeyMarker.text.toList, isNotSpace char :=
          List.all_eq_true.mp (by decide)
        exact accepted char mark
      · apply keyReadable.unspaced
        rw [whole]
        exact List.mem_append_left _ early
  · intro closed
    refine ⟨idReadable.filled, idReadable.unspaced, rfl, ?_⟩
    intro before remaining behind _
    exact matchStart_behind free closed behind

theorem matchStart_service {creds : CredentialsType} {pieces : CapturePattern} {rest : List Char}
    {fields : List String} (service : ∀ char ∈ serviceId.toList, isWordOrDash char) :
    CapturePattern.matchStart
        (.literal "service_id:" :: .capture isWordOrDash :: .literal (credsMarker creds).text ::
          pieces)
        ("service_id:".toList ++ (serviceId.toList ++ ((credsMarker creds).text.toList ++ rest))) =
      some (serviceId :: fields) ↔
        serviceId ≠ "" ∧ CapturePattern.matchStart pieces rest = some fields := by
  have comma : ',' ∈ (credsMarker creds).text.toList := by
    cases creds <;> decide
  rw [CapturePattern.matchStart_literal_append, CapturePattern.matchStart_capture_marker]
  constructor
  · rintro ⟨filled, _, matched, _⟩
    exact ⟨filled, matched⟩
  · rintro ⟨filled, matched⟩
    refine ⟨filled, service, matched, ?_⟩
    intro before remaining _ accepted
    have word := accepted ',' (List.mem_append_left _ comma)
    exact absurd word (by decide)

end Fields

section RoundTrip

variable {serviceId metric : String} {creds : Credentials}

/-- The key of an application has no second label with something after it. -/
def Unrepeated (creds : Credentials) : Prop :=
  ∀ appKey ∈ creds.appKey, ¬ appKeyMarker.text.toList <:+: appKey.toList.dropLast

/-- The expression of one credential. -/
theorem Credentials.matchStart_single (type : CredentialsType) {value : String}
    (service : ∀ char ∈ serviceId.toList, isWordOrDash char) (filled : serviceId ≠ "")
    (readable : Readable value) (metricReadable : Readable metric)
    (free : metricMarker.Free metric) :
    CapturePattern.matchStart
      [.literal "service_id:", .capture isWordOrDash, .literal (credsMarker type).text,
        .capture isNotSpace, .literal metricMarker.text, .capture isNotSpace]
      (keyForBatchedReport serviceId (.only type value) metric).toList =
        some [serviceId, value, metric] := by
  have letters : (keyForBatchedReport serviceId (.only type value) metric).toList =
      "service_id:".toList ++ (serviceId.toList ++ ((credsMarker type).text.toList ++
        (value.toList ++ (metricMarker.text.toList ++ metric.toList)))) := by
    cases type <;>
    · simp only [keyForBatchedReport_def, only, credsPartInKey, Option.getD_some, Option.map_some,
        String.toList_append, List.append_assoc]
      rfl
  rw [letters]
  exact (matchStart_service service).mpr ⟨filled, matchStart_value readable metricReadable free⟩

/-- The expression of an application with a key. -/
theorem Credentials.match?_app {appId appKey : String}
    (service : ∀ char ∈ serviceId.toList, isWordOrDash char) (filled : serviceId ≠ "")
    (idReadable : Readable appId) (keyReadable : Readable appKey)
    (metricReadable : Readable metric) (free : metricMarker.Free metric) :
    (regexesReportKey .appKey).match? (keyForBatchedReport serviceId
        { appId := some appId, appKey := some appKey } metric) =
      some [serviceId, appId, appKey, metric] ↔
        ¬ appKeyMarker.text.toList <:+: appKey.toList.dropLast := by
  have pattern : regexesReportKey .appKey =
      .literal "service_id:" :: .capture isWordOrDash :: .literal (credsMarker .appId).text ::
        [.capture isNotSpace, .literal appKeyMarker.text, .capture isNotSpace,
          .literal metricMarker.text, .capture isNotSpace] := rfl
  have letters : (keyForBatchedReport serviceId
        { appId := some appId, appKey := some appKey } metric).toList =
      "service_id:".toList ++ (serviceId.toList ++ ((credsMarker .appId).text.toList ++
        (appId.toList ++ (appKeyMarker.text.toList ++
          (appKey.toList ++ (metricMarker.text.toList ++ metric.toList)))))) := by
    simp only [keyForBatchedReport_def, credsPartInKey, Option.getD_some, String.toList_append,
      List.append_assoc]
    rfl
  rw [← matchStart_app idReadable keyReadable metricReadable free, pattern]
  constructor
  · intro matched
    have nonempty {field : String} (filled : field ≠ "") : field.toList ≠ [] := fun empty =>
      filled (String.toList_eq_nil_iff.mp empty)
    have value := matchStart_value keyReadable metricReadable free
    have start : (CapturePattern.matchStart
        (.literal "service_id:" :: .capture isWordOrDash :: .literal (credsMarker .appId).text ::
          [.capture isNotSpace, .literal appKeyMarker.text, .capture isNotSpace,
            .literal metricMarker.text, .capture isNotSpace])
        (keyForBatchedReport serviceId
          { appId := some appId, appKey := some appKey } metric).toList).isSome := by
      rw [letters, CapturePattern.matchStart_literal_append]
      apply CapturePattern.isSome_matchStart_capture (nonempty filled) service
      rw [CapturePattern.matchStart_literal_append]
      apply CapturePattern.isSome_matchStart_capture (nonempty idReadable.filled)
        idReadable.unspaced
      rw [CapturePattern.matchStart_literal_append, value]
      rfl
    obtain ⟨fields, found⟩ := Option.isSome_iff_exists.mp start
    rw [CapturePattern.match?_of_matchStart found] at matched
    obtain rfl := Option.some.inj matched
    rw [letters] at found
    exact ((matchStart_service service).mp found).2
  · intro matched
    apply CapturePattern.match?_of_matchStart
    rw [letters]
    exact (matchStart_service service).mpr ⟨filled, matched⟩

/-- When the form of the credentials is recognised, a key is read back unless it has no service or
its identifier is read too far. -/
theorem Credentials.Supported.match?_key (supported : creds.Supported)
    (service : ∀ char ∈ serviceId.toList, isWordOrDash char)
    (readable : ∀ value ∈ metric :: creds.values, Readable value)
    (free : metricMarker.Free metric) :
    (regexesReportKey creds.keyType).match? (keyForBatchedReport serviceId creds metric) =
      some (serviceId :: creds.values ++ [metric]) ↔ serviceId ≠ "" ∧ Unrepeated creds := by
  have filled (matched : (regexesReportKey creds.keyType).match?
      (keyForBatchedReport serviceId creds metric) = some (serviceId :: creds.values ++ [metric])) :
      serviceId ≠ "" := by
    obtain ⟨pieces, pattern⟩ : ∃ pieces, regexesReportKey creds.keyType =
        .literal "service_id:" :: .capture isWordOrDash :: pieces := by
      cases creds.keyType <;> exact ⟨_, rfl⟩
    rw [pattern] at matched
    obtain ⟨start, found⟩ := CapturePattern.exists_matchStart matched
    obtain ⟨rest, _, found⟩ := CapturePattern.matchStart_literal.mp found
    obtain ⟨run, _, _, _, same, nonempty, _⟩ := CapturePattern.matchStart_capture.mp found
    rw [(List.cons.inj same).1]
    exact fun empty => nonempty (String.ofList_eq_empty_iff.mp empty)
  have metricReadable := readable metric List.mem_cons_self
  have single (type : CredentialsType) {value : String} (filled : serviceId ≠ "")
      (valueReadable : Readable value) :=
    CapturePattern.match?_of_matchStart
      (matchStart_single type service filled valueReadable metricReadable free)
  constructor
  · intro matched
    refine ⟨filled matched, ?_⟩
    cases supported with
    | userKey | accessToken | appId => exact nofun
    | appKey appId appKey =>
        intro key member
        have same : some appKey = some key := member
        obtain rfl := Option.some.inj same
        exact (match?_app service (filled matched) (readable appId (by simp [values, fields]))
          (readable appKey (by simp [values, fields])) metricReadable free).mp matched
  · rintro ⟨present, unrepeated⟩
    cases supported with
    | userKey userKey => exact single .userKey present (readable userKey (by simp [values, fields]))
    | accessToken token =>
        exact single .accessToken present (readable token (by simp [values, fields]))
    | appId appId => exact single .appId present (readable appId (by simp [values, fields]))
    | appKey appId appKey =>
        exact (match?_app service present (readable appId (by simp [values, fields]))
          (readable appKey (by simp [values, fields])) metricReadable free).mpr
            (unrepeated appKey rfl)

/-- A report has the credentials when its fields come in their order. -/
theorem Credentials.Supported.reportFromMatch_eq_some (supported : creds.Supported) {value : Int}
    {credType : KeyType} {fields : List String} :
    reportFromMatch value credType fields =
        some { serviceId, metric, credentials := creds, value } ↔
      credType = creds.keyType ∧ fields = serviceId :: creds.values ++ [metric] := by
  constructor
  · fun_cases reportFromMatch value credType fields with
    | case5 =>
        intro found
        cases found
    | case1 | case2 | case3 | case4 =>
        intro found
        cases found
        exact ⟨rfl, rfl⟩
  · rintro ⟨rfl, rfl⟩
    cases supported <;> rfl

/-- What keeps the fields of a report apart in its key. -/
structure ReadsBack (serviceId : String) (creds : Credentials) (metric : String) : Prop where
  service : serviceId ≠ ""
  unlabelled : Unlabelled creds metric
  unrepeated : Unrepeated creds

/-- The key of a report reads back exactly when the service is not empty, no value has a label in
it that is looked for before the one of the credentials, and the key of an application does
not repeat its label before its last letter. -/
theorem reportFromKey_keyForBatchedReport_iff (serviceId : String) (creds : Credentials)
    (metric : String) (service : ∀ char ∈ serviceId.toList, isWordOrDash char)
    (supported : creds.Supported) (readable : ∀ value ∈ metric :: creds.values, Readable value)
    (free : metricMarker.Free metric) :
    (∀ value, reportFromKeyBatchedReport (keyForBatchedReport serviceId creds metric) value =
      .ok { serviceId, metric, credentials := creds, value }) ↔
        ReadsBack serviceId creds metric := by
  have form := @supported.detectCredType_eq serviceId metric creds service
  have fields := supported.match?_key service readable free
  constructor
  · intro reads
    have read := reads 0
    unfold reportFromKeyBatchedReport at read
    cases detected : detectCredType (keyForBatchedReport serviceId creds metric) with
    | none => simp only [detected, reduceCtorEq] at read
    | some credType =>
        rw [detected] at read
        dsimp only at read
        split at read
        · rename_i report found
          obtain rfl := Except.ok.inj read
          obtain ⟨texts, matched, report⟩ := Option.bind_eq_some_iff.mp found
          obtain ⟨rfl, rfl⟩ := supported.reportFromMatch_eq_some.mp report
          obtain ⟨filled, unrepeated⟩ := fields.mp matched
          exact ⟨filled, form.mp detected, unrepeated⟩
        · cases read
  · rintro ⟨filled, unlabelled, unrepeated⟩ value
    unfold reportFromKeyBatchedReport
    rw [form.mpr unlabelled]
    dsimp only
    rw [fields.mpr ⟨filled, unrepeated⟩, Option.bind_some,
      supported.reportFromMatch_eq_some.mpr ⟨rfl, rfl⟩]

/-- A plain identifier and a plain key are read back. -/
theorem reportFromKey_app :
    reportFromKeyBatchedReport (keyForBatchedReport "42"
        { appId := some "an_id", appKey := some "a_key" } "hits") 1 =
      .ok { serviceId := "42", metric := "hits",
            credentials := { appId := some "an_id", appKey := some "a_key" }, value := 1 } :=
  (reportFromKey_keyForBatchedReport_iff "42" { appId := some "an_id", appKey := some "a_key" }
    "hits" (List.all_eq_true.mp (by decide)) (.appKey _ _) (by decide) (by decide)).mpr
      ⟨by decide, by decide, fun _ member => Option.some.inj member ▸ by decide⟩ 1

/-- An access token with the label of a user key in it is not read back. -/
theorem not_reportFromKey_labelled :
    ¬ ∀ value, reportFromKeyBatchedReport (keyForBatchedReport "42"
        { accessToken := some "user_key:a" } "hits") value =
      .ok { serviceId := "42", metric := "hits",
            credentials := { accessToken := some "user_key:a" }, value } := by
  intro reads
  exact absurd (reads 1) (by decide)

end RoundTrip

end Apicast.Batcher
