import Apicast.Foundation.DelimitedString

/-!
# The path and the query of an upstream

`upstream.lua` and `resty/url_helper.lua`. A path that is appended to an upstream may have a query.
The upstream is meant to keep the query that it has. It keeps it when the path comes with a query of
its own, and loses it when the path has none.
-/

namespace Apicast.UpstreamPath

open Foundation

/-- The parts of a URL that `resty.url.split` finds. -/
structure SplitUrl where
  scheme : String
  user : Option String
  password : Option String
  host : String
  port : Option String
  path : Option String

structure Library where
  split (url : String) : Option SplitUrl
  join (path other : String) : String
  tonumber (text : String) : Option Nat

structure Uri where
  scheme : String
  user : Option String
  password : Option String
  host : String
  port : Option Nat
  path : Option String
  query : Option String
  deriving DecidableEq, Repr

/-- `split_path` of a path. -/
def splitPath (path : String) : String × Option String :=
  match Delimited.split? '?' path with
  | some (path, query) => (path, some query)
  | none => (path, none)

variable (library : Library)

/-- `parse_url` -/
def parseUrl (url : String) : Option Uri :=
  (library.split url).map fun parsed =>
    { scheme := parsed.scheme
      user := parsed.user
      password := parsed.password
      host := parsed.host
      port := parsed.port.bind library.tonumber
      path := parsed.path.map fun path => (splitPath path).1
      query := parsed.path.bind fun path => (splitPath path).2 }

structure Upstream where
  uri : Uri
  locationName : String
  upstreamName : String
  deriving DecidableEq, Repr

/-- `_M.new`, which has no upstream for an invalid URL. -/
def Upstream.new (url : String) : Option Upstream :=
  (parseUrl library url).map fun uri =>
    { uri, locationName := "@upstream", upstreamName := "upstream" }

/-- The path after another one is appended. -/
def appendedPath (path : Option String) (tmpPath : String) : String :=
  let path := path.getD "/"
  if tmpPath ≠ "" then library.join path tmpPath else path

/-- The query after the one of a path. -/
def appendedQuery (query tmpQuery : Option String) : Option String :=
  match tmpQuery with
  | some tmpQuery => if tmpQuery ≠ "" then query else some tmpQuery
  | none => none

/-- `_M:append_path` -/
def Upstream.appendPath (self : Upstream) (path : String) : Upstream :=
  let (tmpPath, tmpQuery) := splitPath path
  { self with
    uri :=
      { self.uri with
        path := some (appendedPath library self.uri.path tmpPath)
        query := appendedQuery self.uri.query tmpQuery } }

def Upstream.appendPaths (self : Upstream) (paths : List String) : Upstream :=
  paths.foldl (Upstream.appendPath library) self

/-- The query unless it is empty. -/
def nonEmpty (query : Option String) : Option String := query.filter fun query => query ≠ ""

/-- The query of a path that is appended, unless it is empty. -/
def pathQuery (path : String) : Option String := nonEmpty (splitPath path).2

/-- The path joined with the ones that are appended, of which the empty ones do not count. -/
def joinedPath (path : Option String) : List String → Option String
  | [] => path
  | paths =>
      some ((paths.map fun path => (splitPath path).1).foldl
        (fun path other => if other ≠ "" then library.join path other else path) (path.getD "/"))

/-- The paths are joined, and the query is the first one there is. -/
def KeepsQuery (self : Upstream) (paths : List String) : Prop :=
  (self.appendPaths library paths).uri.path = joinedPath library self.uri.path paths ∧
    nonEmpty (self.appendPaths library paths).uri.query =
      (nonEmpty self.uri.query).or (paths.findSome? pathQuery)

section Append

variable {library} {self : Upstream} {paths : List String} {path : String}

theorem path_appendPaths : (self.appendPaths library paths).uri.path =
    joinedPath library self.uri.path paths := by
  have joined (self : Upstream) (paths : List String) (path : String)
      (has : self.uri.path = some path) :
      (self.appendPaths library paths).uri.path =
        some ((paths.map fun path => (splitPath path).1).foldl
          (fun path other => if other ≠ "" then library.join path other else path) path) := by
    induction paths generalizing self path with
    | nil => exact has
    | cons first paths ih =>
        refine ih (self.appendPath library first) _ (congrArg some ?_)
        rw [has]
        rfl
  cases paths with
  | nil => rfl
  | cons first paths => exact joined (self.appendPath library first) paths _ rfl

/-- One path leaves the query when it has one itself. -/
theorem nonEmpty_query_appendPath : nonEmpty (self.appendPath library path).uri.query =
    if (pathQuery path).isSome then nonEmpty self.uri.query else none := by
  change nonEmpty (appendedQuery self.uri.query (splitPath path).2) = _
  unfold pathQuery appendedQuery
  cases (splitPath path).2 with
  | none => rfl
  | some query =>
      by_cases empty : query = ""
      · rw [empty]
        rfl
      · have filled : nonEmpty (some query) = some query := by
          unfold nonEmpty
          rw [Option.filter_some, if_pos (decide_eq_true empty)]
        rw [filled, Option.isSome_some, if_pos rfl]
        exact congrArg nonEmpty (if_pos empty)

/-- The paths leave the query when each of them has one itself. -/
theorem nonEmpty_query_appendPaths :
    nonEmpty (self.appendPaths library paths).uri.query =
      if ∀ path ∈ paths, (pathQuery path).isSome then nonEmpty self.uri.query else none := by
  induction paths generalizing self with
  | nil => exact (if_pos (List.forall_mem_nil _)).symm
  | cons path paths ih =>
      have later : nonEmpty ((self.appendPath library path).appendPaths library paths).uri.query =
          if ∀ path ∈ paths, (pathQuery path).isSome then
            nonEmpty (self.appendPath library path).uri.query
          else none := ih
      refine later.trans ?_
      rw [nonEmpty_query_appendPath]
      simp only [List.forall_mem_cons]
      by_cases first : (pathQuery path).isSome
      · simp only [first, true_and, if_true]
      · simp only [first, Bool.false_eq_true, false_and, if_false, ite_self]

/-- The path of an upstream is always the joined one, and the query is kept exactly when the paths
that are appended have one if and only if the upstream has one. -/
theorem keepsQuery_iff (library : Library) (self : Upstream) (paths : List String) :
    KeepsQuery library self paths ↔
      ∀ path ∈ paths, ((pathQuery path).isSome ↔ (nonEmpty self.uri.query).isSome) := by
  unfold KeepsQuery
  rw [and_iff_right path_appendPaths, nonEmpty_query_appendPaths]
  cases nonEmpty self.uri.query with
  | none =>
      rw [ite_self, Option.none_or, eq_comm, List.findSome?_eq_none_iff]
      simp only [Option.isSome_none, Bool.false_eq_true, iff_false, Option.not_isSome_iff_eq_none]
  | some query =>
      rw [Option.some_or]
      simp only [Option.isSome_some, iff_true]
      split
      · next all => exact iff_of_true rfl all
      · next missing => exact iff_of_false (fun same => nomatch same) missing

end Append

section Examples

/-- URLs of one host, and paths that are joined as they are. -/
def hostLibrary : Library where
  split url :=
    (url.dropPrefix? "http://host").map fun path =>
      { scheme := "http"
        user := none
        password := none
        host := "host"
        port := none
        path := if path.isEmpty then none else some path.toString }
  join path other := path ++ other
  tonumber := String.toNat?

/-- An upstream with the query `x=1`, and a path without one. -/
theorem not_keepsQuery_pathOnly :
    ∃ upstream, Upstream.new hostLibrary "http://host/a?x=1" = some upstream ∧
      ¬KeepsQuery hostLibrary upstream ["/b"] := by
  refine ⟨{
    uri := { scheme := "http", user := none, password := none, host := "host", port := none
             path := some "/a", query := some "x=1" }
    locationName := "@upstream"
    upstreamName := "upstream" }, by decide +kernel, ?_⟩
  rintro ⟨-, kept⟩
  exact absurd kept (by decide +kernel)

end Examples

end Apicast.UpstreamPath
