import Apicast.Configuration.Store
import Apicast.HeadersPolicy
import Mathlib.Data.List.Dedup

/-!
# Tables of headers

A header is read by its name in any case. The raw table of nginx keeps every spelling as a key of
its own, the table of the HTTP client does not: it is filled key by key in an unspecified order,
and a later spelling takes the place of an earlier one.
-/

namespace Apicast

namespace HeaderTables

open HeadersPolicy (HeaderValue getHeader)

/-- The headers of a request as they were sent, one by one. -/
abbrev Lines := List (String × String)

/-- The table of `ngx.req.get_headers(0, true)`, in any order. -/
abbrev RawHeaders := List (String × HeaderValue)

/-- Names are the same in any case. -/
def sameName (name : String) (other : String) : Bool := lower other = lower name

/-- All values of a header, in the order of its lines. -/
def Lines.values (headers : Lines) (name : String) : List String :=
  (headers.filter fun header => sameName name header.1).map Prod.snd

/-- `ngx.req.get_headers()[name]` -/
def Lines.named (headers : Lines) (name : String) : Option HeaderValue :=
  getHeader (headers.values name)

/-- `ngx.req.set_header` -/
def Lines.set (headers : Lines) (name : String) (value : Option String) : Lines :=
  headers.filter (fun header => !sameName name header.1) ++ (value.map (name, ·)).toList

/-- `ngx.req.get_headers(0, true)` -/
def Lines.raw (headers : Lines) : RawHeaders :=
  (headers.map Prod.fst).dedup.filterMap fun name =>
    (getHeader ((headers.filter fun header => header.1 = name).map Prod.snd)).map (name, ·)

/-- Assign a key of the raw table. -/
def RawHeaders.assign (headers : RawHeaders) (name : String) (value : Option String) : RawHeaders :=
  headers.filter (fun header => header.1 ≠ name) ++
    (value.map fun text => (name, HeaderValue.text text)).toList

/-- A header of the HTTP client, which is handed the raw table key by key. Its own table does not
tell spellings apart, and the key that comes last wins. -/
def RawHeaders.sent (traversal : RawHeaders) (name : String) : Option HeaderValue :=
  (traversal.reverse.find? fun header => sameName name header.1).map Prod.snd

section Headers

variable {name other : String} {headers : Lines} {traversal : RawHeaders}

@[simp] theorem sameName_iff : sameName name other = true ↔ lower other = lower name := by
  simp [sameName]

/-- The raw table has under each spelling the values that were sent with this spelling. -/
theorem mem_raw {header : String × HeaderValue} :
    header ∈ headers.raw ↔
      getHeader ((headers.filter fun line => line.1 = header.1).map Prod.snd) = some header.2 := by
  obtain ⟨key, value⟩ := header
  unfold Lines.raw
  constructor
  · intro member
    obtain ⟨spelling, -, found⟩ := List.mem_filterMap.mp member
    obtain ⟨text, read, same⟩ := Option.map_eq_some_iff.mp found
    obtain ⟨rfl, rfl⟩ := Prod.mk.inj same
    exact read
  · intro read
    refine List.mem_filterMap.mpr ⟨key, ?_, by simp [read]⟩
    have occurs : key ∈ headers.map Prod.fst := by
      by_contra missing
      have nothing : (headers.filter fun line => line.1 = key) = [] :=
        List.filter_eq_nil_iff.mpr fun line member same =>
          missing (List.mem_map.mpr ⟨line, member, by simpa using same⟩)
      simp [nothing, getHeader] at read
    exact List.mem_dedup.mpr occurs

/-- A header that is in no spelling among the keys is not sent. -/
theorem sent_eq_none (absent : ∀ header ∈ traversal, lower header.1 ≠ lower name) :
    traversal.sent name = none := by
  unfold RawHeaders.sent
  rw [Option.map_eq_none_iff, List.find?_eq_none]
  intro header member
  rw [sameName_iff]
  exact absent header (List.mem_reverse.mp member)

/-- A header whose spellings all have one value is sent with this value in every order. -/
theorem sent_eq_some {value : HeaderValue}
    (occurs : ∃ header ∈ traversal, lower header.1 = lower name)
    (agree : ∀ header ∈ traversal, lower header.1 = lower name → header.2 = value) :
    traversal.sent name = some value := by
  unfold RawHeaders.sent
  cases found : traversal.reverse.find? fun header => sameName name header.1 with
  | none =>
      obtain ⟨header, member, same⟩ := occurs
      have differs := List.find?_eq_none.mp found header (List.mem_reverse.mpr member)
      exact absurd (sameName_iff.mpr same) differs
  | some header =>
      have member := List.mem_reverse.mp (List.mem_of_find?_eq_some found)
      have same : sameName name header.1 = true := by simpa using List.find?_some found
      rw [Option.map_some, agree header member (sameName_iff.mp same)]

/-- The key that comes last wins. -/
theorem sent_concat {key : String} {value : HeaderValue} (same : lower key = lower name) :
    RawHeaders.sent (traversal ++ [(key, value)]) name = some value := by
  simp [RawHeaders.sent, sameName, same]

/-- An assigned key has the value that was assigned, and the others stay. -/
theorem mem_assign {table : RawHeaders} {value : Option String} {header : String × HeaderValue} :
    header ∈ table.assign name value ↔
      header ∈ table ∧ header.1 ≠ name ∨
        ∃ text, value = some text ∧ header = (name, .text text) := by
  unfold RawHeaders.assign
  cases value with
  | none => simp
  | some text => simp

/-- Setting a header leaves the spellings of the others alone. -/
theorem mem_raw_set {headers : Lines} {name : String} {value : Option String}
    {header : String × HeaderValue} (different : lower header.1 ≠ lower name) :
    header ∈ (headers.set name value).raw ↔ header ∈ headers.raw := by
  have kept : ((headers.set name value).filter fun line => line.1 = header.1) =
      headers.filter fun line => line.1 = header.1 := by
    have added : ((value.map (name, ·)).toList.filter fun line => line.1 = header.1) = [] := by
      cases value with
      | none => rfl
      | some text =>
          have spelled : name ≠ header.1 := fun same => different (congrArg lower same.symm)
          simp [spelled]
    unfold Lines.set
    rw [List.filter_append, List.filter_filter, added, List.append_nil]
    refine List.filter_congr fun line _ => ?_
    by_cases spelled : line.1 = header.1
    · simp [spelled, sameName, different]
    · simp [spelled]
  rw [mem_raw, mem_raw, kept]

end Headers

end HeaderTables

end Apicast
