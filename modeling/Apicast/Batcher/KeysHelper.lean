import Apicast.Foundation.CapturePattern
import Mathlib.Data.Fintype.Basic

/-!
# The keys of batched reports

The storage of the batcher is keyed by strings that spell out the service, the
credentials and the metric of a report, and the reports are read back from these
strings. Whether a key reads back to what it was built from depends on the
values in it.
-/

namespace Apicast.Batcher

open Foundation

/-- The kinds of credentials a service can work with. -/
inductive CredentialsType
  | userKey
  | appId
  | accessToken
  deriving DecidableEq, Repr

instance : Fintype CredentialsType where
  elems := {.userKey, .appId, .accessToken}
  complete := by
    intro type
    cases type <;> decide

/-- The credentials of a call. -/
structure Credentials where
  userKey : Option String := none
  accessToken : Option String := none
  appId : Option String := none
  appKey : Option String := none
  deriving DecidableEq, Repr

/-- The credential of one type. -/
def Credentials.credential (creds : Credentials) : CredentialsType → Option String
  | .userKey => creds.userKey
  | .appId => creds.appId
  | .accessToken => creds.accessToken

/-- The credentials that consist of a single credential. -/
def Credentials.only : CredentialsType → String → Credentials
  | .userKey, credential => { userKey := some credential }
  | .appId, credential => { appId := some credential }
  | .accessToken, credential => { accessToken := some credential }

/-- A report, as far as it is kept by the batcher. -/
structure Report where
  serviceId : String
  metric : String
  credentials : Credentials
  value : Int
  deriving DecidableEq, Repr

section Keys

def credsPartInKey (creds : Credentials) : Option String :=
  match creds.appId, creds.appKey with
  | some appId, some appKey => some ("app_id:" ++ appId ++ ",app_key:" ++ appKey)
  | _, _ =>
      match creds.userKey with
      | some userKey => some ("user_key:" ++ userKey)
      | none =>
          match creds.accessToken with
          | some accessToken => some ("access_token:" ++ accessToken)
          | none => creds.appId.map fun appId => "app_id:" ++ appId

/-- Absent credentials are formatted as `nil`. -/
def keyForBatchedReport (serviceId : String) (credentials : Credentials) (metricName : String) :
    String :=
  "service_id:" ++ serviceId ++ "," ++ (credsPartInKey credentials).getD "nil" ++
    ",metric:" ++ metricName

theorem keyForBatchedReport_def (serviceId : String) (credentials : Credentials)
    (metricName : String) : keyForBatchedReport serviceId credentials metricName =
      "service_id:" ++ serviceId ++ "," ++ (credsPartInKey credentials).getD "nil" ++ ",metric:" ++
        metricName := rfl

/-- The forms of the credentials part of a key. -/
inductive KeyType
  | userKey
  | accessToken
  | appKey
  | appId
  deriving DecidableEq, Repr

/-- The class `[\w-]`. -/
def isWordOrDash (char : Char) : Bool := char.isAlphanum || char == '_' || char == '-'

/-- The class `[\S-]`. -/
def isNotSpace (char : Char) : Bool :=
  !(char == ' ' || (9 ≤ char.toNat && char.toNat ≤ 13))

def regexesReportKey : KeyType → CapturePattern
  | .userKey =>
      [.literal "service_id:", .capture isWordOrDash, .literal ",user_key:", .capture isNotSpace,
        .literal ",metric:", .capture isNotSpace]
  | .accessToken =>
      [.literal "service_id:", .capture isWordOrDash, .literal ",access_token:",
        .capture isNotSpace, .literal ",metric:", .capture isNotSpace]
  | .appKey =>
      [.literal "service_id:", .capture isWordOrDash, .literal ",app_id:", .capture isNotSpace,
        .literal ",app_key:", .capture isNotSpace, .literal ",metric:", .capture isNotSpace]
  | .appId =>
      [.literal "service_id:", .capture isWordOrDash, .literal ",app_id:", .capture isNotSpace,
        .literal ",metric:", .capture isNotSpace]

def detectCredType (key : String) : Option KeyType :=
  if "user_key:".toList <:+: key.toList then some .userKey
  else if "access_token:".toList <:+: key.toList then some .accessToken
  else if "app_key:".toList <:+: key.toList then some .appKey
  else if "app_id:".toList <:+: key.toList then some .appId
  else none

/-- The report of a match, whose groups come in the order of the expression. -/
def reportFromMatch (value : Int) : KeyType → List String → Option Report
  | .userKey, [serviceId, userKey, metric] =>
      some { serviceId, metric, credentials := { userKey := some userKey }, value }
  | .accessToken, [serviceId, accessToken, metric] =>
      some { serviceId, metric, credentials := { accessToken := some accessToken }, value }
  | .appKey, [serviceId, appId, appKey, metric] =>
      some { serviceId, metric, credentials := { appId := some appId, appKey := some appKey },
             value }
  | .appId, [serviceId, appId, metric] =>
      some { serviceId, metric, credentials := { appId := some appId }, value }
  | _, _ => none

def reportFromKeyBatchedReport (key : String) (value : Int) : Except String Report :=
  match detectCredType key with
  | none => .error "credentials not found"
  | some credType =>
      match ((regexesReportKey credType).match? key).bind (reportFromMatch value credType) with
      | some report => .ok report
      | none => .error "credentials not found"

end Keys

section Identity

/-- The value under which calls are reported. -/
def Credentials.identity (creds : Credentials) : Option String :=
  creds.userKey <|> creds.appId <|> creds.accessToken

/-- The credentials are of one type only. -/
structure Credentials.UsesType (creds : Credentials) (type : CredentialsType) : Prop where
  present : (creds.credential type).isSome
  single : ∀ other, other ≠ type → creds.credential other = none

instance (creds : Credentials) (type : CredentialsType) : Decidable (creds.UsesType type) :=
  decidable_of_iff
    ((creds.credential type).isSome ∧ ∀ other, other ≠ type → creds.credential other = none)
    ⟨fun ⟨present, single⟩ => ⟨present, single⟩, fun uses => ⟨uses.present, uses.single⟩⟩

/-- The credentials from which a key is built. -/
def Credentials.inKey (creds : Credentials) : Credentials :=
  match creds.appId, creds.appKey with
  | some appId, some appKey => { appId := some appId, appKey := some appKey }
  | _, _ =>
      match creds.userKey with
      | some userKey => { userKey := some userKey }
      | none =>
          match creds.accessToken with
          | some accessToken => { accessToken := some accessToken }
          | none => { appId := creds.appId }

variable {creds : Credentials} {type : CredentialsType}

theorem Credentials.credential_only (credential : String) :
    (Credentials.only type credential).credential type = some credential := by
  cases type <;> rfl

theorem Credentials.usesType_only (type : CredentialsType) (credential : String) :
    (Credentials.only type credential).UsesType type where
  present := by
    rw [credential_only, Option.isSome_some]
  single := by
    intro other different
    cases type <;> cases other <;> first | rfl | exact absurd rfl different

namespace Credentials.UsesType

/-- Credentials of one type are reported under the credential of this type. -/
theorem identity_eq (uses : creds.UsesType type) : creds.identity = creds.credential type := by
  unfold identity
  cases type with
  | userKey =>
      obtain ⟨credential, present⟩ := Option.isSome_iff_exists.mp uses.present
      have userKey : creds.userKey = some credential := present
      rw [userKey, present]
      rfl
  | appId =>
      have userKey : creds.userKey = none := uses.single .userKey nofun
      have accessToken : creds.accessToken = none := uses.single .accessToken nofun
      rw [userKey, accessToken]
      change (creds.appId <|> none) = creds.appId
      cases creds.appId <;> rfl
  | accessToken =>
      have userKey : creds.userKey = none := uses.single .userKey nofun
      have appId : creds.appId = none := uses.single .appId nofun
      rw [userKey, appId]
      rfl

theorem exists_identity (uses : creds.UsesType type) :
    ∃ identity, creds.identity = some identity ∧ creds.credential type = some identity := by
  obtain ⟨identity, present⟩ := Option.isSome_iff_exists.mp uses.present
  exact ⟨identity, uses.identity_eq.trans present, present⟩

/-- The key keeps the credential of the type. -/
theorem credential_inKey (uses : creds.UsesType type) (other : CredentialsType) :
    creds.inKey.credential other = creds.credential other := by
  obtain ⟨value, present⟩ := Option.isSome_iff_exists.mp uses.present
  unfold inKey
  cases type with
  | userKey =>
      have userKey : creds.userKey = some value := present
      have appId : creds.appId = none := uses.single .appId nofun
      have accessToken : creds.accessToken = none := uses.single .accessToken nofun
      cases other <;> simp only [credential, userKey, appId, accessToken]
  | appId =>
      have appId : creds.appId = some value := present
      have userKey : creds.userKey = none := uses.single .userKey nofun
      have accessToken : creds.accessToken = none := uses.single .accessToken nofun
      cases creds.appKey <;> cases other <;>
        simp only [credential, userKey, appId, accessToken]
  | accessToken =>
      have accessToken : creds.accessToken = some value := present
      have userKey : creds.userKey = none := uses.single .userKey nofun
      have appId : creds.appId = none := uses.single .appId nofun
      cases other <;> simp only [credential, userKey, appId, accessToken]

/-- What a key keeps of the credentials is of the same type. -/
theorem inKey (uses : creds.UsesType type) : creds.inKey.UsesType type where
  present := by
    rw [uses.credential_inKey]
    exact uses.present
  single := by
    intro other different
    rw [uses.credential_inKey]
    exact uses.single other different

/-- Calls are reported under the same value that their key keeps. -/
theorem identity_inKey (uses : creds.UsesType type) : creds.inKey.identity = creds.identity := by
  rw [uses.inKey.identity_eq, uses.credential_inKey, uses.identity_eq]

end Credentials.UsesType

end Identity

section ParsesBack

theorem reportFromMatch_value (value : Int) (credType : KeyType) (fields : List String) :
    reportFromMatch value credType fields =
      (reportFromMatch 0 credType fields).map fun report => { report with value } := by
  fun_cases reportFromMatch 0 credType fields with
  | case1 | case2 | case3 | case4 => rfl
  | case5 => simp only [reportFromMatch, Option.map_none]

/-- The value of a report is not read from its key. -/
theorem reportFromKeyBatchedReport_value (key : String) (value : Int) :
    reportFromKeyBatchedReport key value =
      (reportFromKeyBatchedReport key 0).map fun report => { report with value } := by
  unfold reportFromKeyBatchedReport
  cases detectCredType key with
  | none => rfl
  | some credType =>
      dsimp only
      cases (regexesReportKey credType).match? key with
      | none => rfl
      | some fields =>
          rw [Option.bind_some, Option.bind_some, reportFromMatch_value]
          cases reportFromMatch 0 credType fields <;> rfl

/-- The key of a report reads back to the service, the credentials and the metric it
was built from. -/
def ParsesBack (serviceId : String) (credentials : Credentials) (metric : String) : Prop :=
  ∀ value, reportFromKeyBatchedReport (keyForBatchedReport serviceId credentials metric) value =
    .ok { serviceId, metric, credentials := credentials.inKey, value }

theorem parsesBack_iff {serviceId metric : String} :
    ParsesBack serviceId creds metric ↔
      reportFromKeyBatchedReport (keyForBatchedReport serviceId creds metric) 0 =
        .ok { serviceId, metric, credentials := creds.inKey, value := 0 } := by
  constructor
  · exact fun parses => parses 0
  · intro parsed value
    rw [reportFromKeyBatchedReport_value, parsed]
    rfl

instance (serviceId : String) (credentials : Credentials) (metric : String) :
    Decidable (ParsesBack serviceId credentials metric) :=
  decidable_of_iff _ parsesBack_iff.symm

end ParsesBack

end Apicast.Batcher
