import Mathlib.Data.List.Induction
import Mathlib.Logic.Function.Basic

/-!
# Commands on request headers

The headers policy runs its commands one after the other on the request. The commands that append
a value read the header in a snapshot that is taken before the first command, so they do not see
what earlier commands left. The last command on a header decides alone what is sent of it.
-/

namespace Apicast

namespace HeadersPolicy

/-- A header in the table of `ngx.req.get_headers`. Several values are a table. -/
inductive HeaderValue
  | text (value : String)
  | table (values : List String)

inductive Op
  | push
  | add
  | set
  | delete
  deriving DecidableEq

/-- A command, with the value that its template renders to. -/
structure Command (Name : Type) where
  op : Op
  header : Name
  value : Option String

/-- The values of the headers of a request. A header that is not set has none. -/
abbrev Headers (Name : Type) := Name → List String

/-- A header as `ngx.req.get_headers` gives it. -/
def getHeader : List String → Option HeaderValue
  | [] => none
  | [value] => some (.text value)
  | first :: second :: values => some (.table (first :: second :: values))

/-- The values that a header is set to. -/
def valuesOf : Option HeaderValue → List String
  | none => []
  | some (.text value) => [value]
  | some (.table values) => values

/-- The values of a header after `ngx.req.set_header`: without a value it is cleared, the first
value replaces what was there, and only clears it when it is empty, and the others are added. -/
def setValues : List String → List String
  | [] => []
  | first :: others => if first = "" then others else first :: others

def setHeader (value : Option HeaderValue) : List String := setValues (valuesOf value)

def newHeaderValue (currentValue : Option HeaderValue) (valueToAdd : Option String) :
    Option HeaderValue :=
  match valueToAdd with
  | none => currentValue
  | some value =>
      match currentValue with
      | none => some (.table [value])
      | some (.text current) => some (.table [current, value])
      | some (.table values) => some (.table (values ++ [value]))

/-- The request, and the snapshot of its headers that the commands read. -/
structure State (Name : Type) where
  headers : Headers Name
  reqHeaders : Name → Option HeaderValue

section Commands

variable {Name : Type} [DecidableEq Name]

def pushRequestHeader (headerName : Name) (value : Option String) (state : State Name) :
    State Name :=
  let newValue := newHeaderValue (state.reqHeaders headerName) value
  { headers := Function.update state.headers headerName (setHeader newValue)
    reqHeaders :=
      match state.reqHeaders headerName with
      -- The value is inserted in the table of the snapshot.
      | some (.table _) => Function.update state.reqHeaders headerName newValue
      | _ => state.reqHeaders }

def setRequestHeader (headerName : Name) (value : Option String) (state : State Name) :
    State Name :=
  { state with
    headers := Function.update state.headers headerName (setHeader (value.map .text)) }

def addRequestHeader (headerName : Name) (value : Option String) (state : State Name) :
    State Name :=
  if (state.reqHeaders headerName).isSome then pushRequestHeader headerName value state else state

def deleteRequestHeader (headerName : Name) (state : State Name) : State Name :=
  { state with headers := Function.update state.headers headerName [] }

def runCommand (state : State Name) (command : Command Name) : State Name :=
  match command.op with
  | .push => pushRequestHeader command.header command.value state
  | .add => addRequestHeader command.header command.value state
  | .set => setRequestHeader command.header command.value state
  | .delete => deleteRequestHeader command.header state

def runCommands (commands : List (Command Name)) (state : State Name) : State Name :=
  commands.foldl runCommand state

/-- The request headers after the rewrite phase, for a request with no more than the hundred
headers that `ngx.req.get_headers` reads. -/
def rewrite (commands : List (Command Name)) (headers : Headers Name) : Headers Name :=
  (runCommands commands { headers, reqHeaders := fun name => getHeader (headers name) }).headers

/-- What a command is documented to make of a header. -/
def documented (op : Op) (value : Option String) (values : List String) : List String :=
  match op with
  | .push => values ++ value.toList
  | .add => if values = [] then [] else values ++ value.toList
  | .set => setHeader (value.map .text)
  | .delete => []

end Commands

section OneHeader

/-- The operation and the value of a command on a header. -/
abbrev Change := Op × Option String

/-- What is left of a header and of its snapshot. -/
abbrev Seen := List String × Option HeaderValue

def pushed (value : Option String) (seen : Seen) : Seen :=
  (setHeader (newHeaderValue seen.2 value),
    match seen.2 with
    | some (.table _) => newHeaderValue seen.2 value
    | _ => seen.2)

def runChange (seen : Seen) (change : Change) : Seen :=
  match change.1 with
  | .push => pushed change.2 seen
  | .add => if seen.2.isSome then pushed change.2 seen else seen
  | .set => (setHeader (change.2.map .text), seen.2)
  | .delete => ([], seen.2)

/-- A header after the changes that the policy runs on it. -/
def run (initial : List String) (changes : List Change) : Seen :=
  changes.foldl runChange (initial, getHeader initial)

/-- A header after the documented changes. -/
def expected (initial : List String) (changes : List Change) : List String :=
  changes.foldl (fun values change => documented change.1 change.2 values) initial

variable {initial : List String} {earlier : List Change} {op : Op} {value : Option String}

/-- The operation replaces what the header was. -/
def Op.Resets (op : Op) : Prop := op = .set ∨ op = .delete

instance (op : Op) : Decidable op.Resets := inferInstanceAs (Decidable (op = .set ∨ op = .delete))

/-- The values that the commands append. -/
def appended (changes : List Change) : List String :=
  changes.flatMap fun change => if change.1.Resets then [] else change.2.toList

theorem run_concat : run initial (earlier ++ [(op, value)]) =
    runChange (run initial earlier) (op, value) := by
  unfold run
  rw [List.foldl_append, List.foldl_cons, List.foldl_nil]

theorem expected_concat : expected initial (earlier ++ [(op, value)]) =
    documented op value (expected initial earlier) := by
  unfold expected
  rw [List.foldl_append, List.foldl_cons, List.foldl_nil]

theorem appended_concat : appended (earlier ++ [(op, value)]) =
    appended earlier ++ if op.Resets then [] else value.toList := by
  unfold appended
  rw [List.flatMap_append, List.flatMap_singleton]

/-- What the commands find of a header in the snapshot: what it came with and, of a header with
several values, also what was appended to it. -/
def snapshotValues (initial : List String) (changes : List Change) : List String :=
  if 2 ≤ initial.length then initial ++ appended changes else initial

theorem setValues_append {values : List String} (present : values ≠ []) (added : List String) :
    setValues (values ++ added) = setValues values ++ added := by
  cases values with
  | nil => exact absurd rfl present
  | cons first others =>
      change (if first = "" then others ++ added else first :: (others ++ added)) =
        (if first = "" then others else first :: others) ++ added
      split <;> rfl

/-- Without a replacement, the header keeps its values and gets the appended ones. -/
theorem expected_of_kept (present : initial ≠ []) {changes : List Change}
    (kept : ∀ change ∈ changes, ¬ change.1.Resets) :
    expected initial changes = initial ++ appended changes := by
  induction changes using List.reverseRecOn with
  | nil => rw [appended, List.flatMap_nil, List.append_nil, expected, List.foldl_nil]
  | append_singleton earlier last ih =>
      obtain ⟨op, value⟩ := last
      have before := ih fun change member => kept change (List.mem_append_left _ member)
      have appends := kept (op, value) (List.mem_append_right _ List.mem_cons_self)
      rw [expected_concat, appended_concat, before, if_neg appends, ← List.append_assoc]
      cases op with
      | push => rfl
      | add => exact if_neg (List.append_ne_nil_of_left_ne_nil present _)
      | set => exact absurd (.inl rfl) appends
      | delete => exact absurd (.inr rfl) appends

theorem length_documented_of_resets (resets : op.Resets) (value : Option String)
    (values : List String) :
    (documented op value values).length ≤ 1 := by
  rcases resets with rfl | rfl
  · cases value with
    | none => exact Nat.zero_le 1
    | some value =>
        change (if value = "" then [] else [value]).length ≤ 1
        split
        · exact Nat.zero_le 1
        · exact Nat.le_refl 1
  · exact Nat.zero_le 1

theorem length_documented_le (kept : ¬ op.Resets) (value : Option String) (values : List String) :
    (documented op value values).length ≤ values.length + value.toList.length := by
  cases op with
  | push => exact Nat.le_of_eq List.length_append
  | add =>
      change (if values = [] then [] else values ++ value.toList).length ≤ _
      split
      · exact Nat.zero_le _
      · exact Nat.le_of_eq List.length_append
  | set => exact absurd (.inl rfl) kept
  | delete => exact absurd (.inr rfl) kept

/-- A replaced header has one value at most, and the ones appended to it. -/
theorem length_expected_le {changes : List Change} {change : Change} (member : change ∈ changes)
    (resets : change.1.Resets) :
    (expected initial changes).length ≤ 1 + (appended changes).length := by
  induction changes using List.reverseRecOn with
  | nil => cases member
  | append_singleton earlier last ih =>
      obtain ⟨op, value⟩ := last
      rw [expected_concat, appended_concat, List.length_append]
      by_cases last : op.Resets
      · exact Nat.le_trans (length_documented_of_resets last value _) (Nat.le_add_right _ _)
      · have before : change ∈ earlier := by
          rcases List.mem_append.mp member with before | same
          · exact before
          · rw [List.mem_singleton.mp same] at resets
            exact absurd resets last
        have smaller := ih before
        have grown := length_documented_le last value (expected initial earlier)
        rw [if_neg last]
        omega

/-- Several values, of which the first one is not empty, are found in the snapshot by the command
after those that did not replace them. -/
theorem expected_eq_snapshot_iff (several : 2 ≤ initial.length) (filled : initial.head? ≠ some "") :
    expected initial earlier = setValues (snapshotValues initial earlier) ↔
      ∀ change ∈ earlier, ¬ change.1.Resets := by
  have nonempty : initial ≠ [] := by
    intro empty
    rw [empty] at several
    exact absurd several (by decide)
  have found : setValues (snapshotValues initial earlier) = initial ++ appended earlier := by
    unfold snapshotValues
    rw [if_pos several, setValues_append nonempty]
    cases initial with
    | nil => exact absurd rfl nonempty
    | cons first others =>
        have solid : first ≠ "" := fun blank => filled (congrArg some blank)
        change (if first = "" then others else first :: others) ++ _ = _
        rw [if_neg solid]
  rw [found]
  constructor
  · intro same change member resets
    have replaced : (expected initial earlier).length ≤ _ := length_expected_le member resets
    have lengths := congrArg List.length same
    rw [List.length_append] at lengths
    omega
  · exact expected_of_kept nonempty

end OneHeader

section AllHeaders

variable {Name : Type} [DecidableEq Name]

/-- One header and its snapshot. -/
def State.seen (state : State Name) (name : Name) : Seen :=
  (state.headers name, state.reqHeaders name)

end AllHeaders

end HeadersPolicy

end Apicast
