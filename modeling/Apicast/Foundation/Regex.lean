import Mathlib.Computability.Language

/-!
# Regular expressions, matched by backtracking

A match tries the alternatives of an expression in order, and what follows the expression decides
which of them holds. Possessive repetitions and backtracking control verbs cut alternatives off.
Expressions without them match what their language says. Every expression sees its subject only
through the characters that its sets accept.
-/

namespace Foundation

/-- The backtracking control verbs. -/
inductive Verb
  | accept
  | fail
  /-- Backtracking past it ends the match. -/
  | commit
  | mark (name : List Char)
  /-- It is a `commit` once its mark was passed. -/
  | skipTo (name : List Char)

inductive Regex
  | empty
  | oneOf (accepts : Char → Bool)
  | seq (first second : Regex)
  /-- As often as possible. -/
  | many (regex : Regex)
  /-- Only in the first way in which it matches. -/
  | possessive (regex : Regex)
  | startOfSubject
  | endOfSubject
  | verb (verb : Verb)

namespace Regex

/-- Where a match is: what is left of the subject, and the marks that it passed. -/
structure Position where
  rest : List Char
  marks : List (List Char)

inductive Verdict
  | matched (position : Position)
  | accepted
  | failed
  | aborted

def Verdict.succeeded : Verdict → Bool
  | .matched _ | .accepted => true
  | .failed | .aborted => false

/-- The first verdict, or the other one when it is a failure. -/
def Verdict.orElse (verdict other : Verdict) : Verdict :=
  match verdict with
  | .failed => other
  | verdict => verdict

/-- The repetitions of a match. One that does not advance is the last. -/
def repetitions (once : (Position → Verdict) → Position → Verdict) (next : Position → Verdict) :
    (fuel : Nat) → Position → Verdict
  | 0, position => next position
  | fuel + 1, position =>
      (once
        (fun later =>
          if later.rest.length < position.rest.length then repetitions once next fuel later
          else next later)
        position).orElse (next position)

/-- The match of an expression in a subject of some length, and of what follows it. -/
def run (length : Nat) : Regex → (Position → Verdict) → Position → Verdict
  | .empty, next, position => next position
  | .oneOf accepts, next, position =>
      match position.rest with
      | [] => .failed
      | c :: rest => if accepts c then next { position with rest } else .failed
  | .seq first second, next, position => run length first (run length second next) position
  | .many regex, next, position =>
      repetitions (run length regex) next (position.rest.length + 1) position
  | .possessive regex, next, position =>
      match run length regex .matched position with
      | .matched later => next later
      | verdict => verdict
  | .startOfSubject, next, position =>
      if position.rest.length = length then next position else .failed
  | .endOfSubject, next, position =>
      -- The end, or before a line break at the end.
      if position.rest = [] ∨ position.rest = ['\n'] then next position else .failed
  | .verb .accept, _, _ => .accepted
  | .verb .fail, _, _ => .failed
  | .verb .commit, next, position => (next position).orElse .aborted
  | .verb (.mark name), next, position => next { position with marks := name :: position.marks }
  | .verb (.skipTo name), next, position =>
      (next position).orElse (if name ∈ position.marks then .aborted else .failed)

/-- A match from one of the ends of a subject on. -/
def searchFrom (regex : Regex) (length : Nat) : List Char → Bool
  | [] => (regex.run length .matched { rest := [], marks := [] }).succeeded
  | c :: rest =>
      match regex.run length .matched { rest := c :: rest, marks := [] } with
      | .failed => searchFrom regex length rest
      -- A verb that ends the match of an expression that begins with `^` leaves no other match.
      | verdict => verdict.succeeded

def search (regex : Regex) (subject : List Char) : Bool :=
  regex.searchFrom subject.length subject

/-- The expressions one after the other. -/
def sequence (regexes : List Regex) : Regex := regexes.foldr .seq .empty

/-- One or more repetitions. -/
def some (regex : Regex) : Regex := .seq regex (.many regex)

section Reads

variable {length : Nat} {verdict other : Verdict}

theorem Verdict.orElse_ne_aborted (first : verdict ≠ .aborted) (second : other ≠ .aborted) :
    verdict.orElse other ≠ .aborted := by
  cases verdict with
  | failed => exact second
  | matched position => exact first
  | accepted => exact first
  | aborted => exact first

theorem Verdict.succeeded_orElse (first : verdict ≠ .aborted) :
    (verdict.orElse other).succeeded = true ↔
      verdict.succeeded = true ∨ other.succeeded = true := by
  cases verdict with
  | failed => exact (or_iff_right Bool.false_ne_true).symm
  | matched position => exact (iff_true_intro rfl).trans (iff_true_intro (.inl rfl)).symm
  | accepted => exact (iff_true_intro rfl).trans (iff_true_intro (.inl rfl)).symm
  | aborted => exact absurd rfl first

/-- A match reads a text of the language, and what follows matches the rest. -/
def Reads (once : (Position → Verdict) → Position → Verdict) (language : Language Char) : Prop :=
  ∀ next, (∀ position, next position ≠ .aborted) → ∀ position,
    once next position ≠ .aborted ∧
      ((once next position).succeeded = true ↔
        ∃ text ∈ language, ∃ rest, position.rest = text ++ rest ∧
          (next { position with rest }).succeeded = true)

theorem reads_empty : Reads (run length .empty) 1 := by
  intro next quiet position
  refine ⟨quiet position, ?_⟩
  constructor
  · intro matched
    exact ⟨[], rfl, position.rest, rfl, matched⟩
  · rintro ⟨text, rfl, rest, found, matched⟩
    exact (congrArg (fun rest => (next { position with rest }).succeeded) found).trans matched

/-- The characters of a set. -/
def characters (accepts : Char → Bool) : Language Char :=
  { text | ∃ c, accepts c = true ∧ text = [c] }

theorem reads_oneOf (accepts : Char → Bool) :
    Reads (run length (.oneOf accepts)) (characters accepts) := by
  intro next quiet position
  obtain ⟨subject, marks⟩ := position
  cases subject with
  | nil =>
      refine ⟨nofun, iff_of_false Bool.false_ne_true ?_⟩
      rintro ⟨text, ⟨c, _, rfl⟩, rest, found, _⟩
      exact List.cons_ne_nil _ _ found.symm
  | cons c subject =>
      unfold run
      dsimp only
      by_cases among : accepts c = true
      · rw [if_pos among]
        refine ⟨quiet _, fun matched => ⟨[c], ⟨c, among, rfl⟩, subject, rfl, matched⟩, ?_⟩
        rintro ⟨text, ⟨d, _, rfl⟩, rest, found, matched⟩
        obtain ⟨rfl, rfl⟩ := List.cons.inj found
        exact matched
      · rw [if_neg among]
        refine ⟨nofun, iff_of_false Bool.false_ne_true ?_⟩
        rintro ⟨text, ⟨d, accepted, rfl⟩, rest, found, _⟩
        obtain ⟨rfl, _⟩ := List.cons.inj found
        exact among accepted

theorem reads_seq {first second : Regex} {language others : Language Char}
    (reads : Reads (run length first) language) (later : Reads (run length second) others) :
    Reads (run length (.seq first second)) (language * others) := by
  intro next quiet position
  obtain ⟨ends, matches_iff⟩ := reads _ (fun position => (later next quiet position).1) position
  refine ⟨ends, matches_iff.trans ?_⟩
  constructor
  · rintro ⟨text, among, rest, found, matched⟩
    obtain ⟨more, also, remaining, continued, matched⟩ := (later next quiet _).2.mp matched
    refine ⟨text ++ more, Language.append_mem_mul among also, remaining, ?_, matched⟩
    rw [found, List.append_assoc]
    exact congrArg (text ++ ·) continued
  · rintro ⟨text, among, remaining, found, matched⟩
    obtain ⟨text, former, more, also, rfl⟩ := Language.mem_mul.mp among
    refine ⟨text, former, more ++ remaining, found.trans (List.append_assoc ..), ?_⟩
    exact (later next quiet _).2.mpr ⟨more, also, remaining, rfl, matched⟩

open Computability in
/-- A repetition is none, or one that is not empty and the others. -/
theorem exists_mem_kstar_iff {language : Language Char} {subject : List Char}
    {After : List Char → Prop} :
    (∃ text ∈ language∗, ∃ rest, subject = text ++ rest ∧ After rest) ↔
      After subject ∨ ∃ text ∈ language, text ≠ [] ∧ ∃ rest, subject = text ++ rest ∧
        ∃ more ∈ language∗, ∃ remaining, rest = more ++ remaining ∧ After remaining := by
  constructor
  · rintro ⟨text, among, rest, rfl, after⟩
    obtain ⟨texts, rfl, each⟩ := Language.mem_kstar_iff_exists_nonempty.mp among
    cases texts with
    | nil => exact .inl after
    | cons text texts =>
        obtain ⟨member, nonempty⟩ := each text List.mem_cons_self
        have repeated : texts.flatten ∈ language∗ :=
          Language.join_mem_kstar fun text later => (each text (List.mem_cons_of_mem _ later)).1
        exact .inr ⟨text, member, nonempty, texts.flatten ++ rest, List.append_assoc ..,
          texts.flatten, repeated, rest, rfl, after⟩
  · rintro (after | ⟨text, member, _, _, rfl, _, ⟨texts, rfl, each⟩, remaining, rfl, after⟩)
    · exact ⟨[], Language.nil_mem_kstar _, subject, rfl, after⟩
    · exact ⟨text ++ texts.flatten,
        ⟨text :: texts, rfl, List.forall_mem_cons.mpr ⟨member, each⟩⟩, remaining,
        (List.append_assoc ..).symm, after⟩

open Computability in
theorem reads_repetitions {once : (Position → Verdict) → Position → Verdict}
    {language : Language Char} (reads : Reads once language) {next : Position → Verdict}
    (quiet : ∀ position, next position ≠ .aborted) {fuel : Nat} {position : Position}
    (enough : position.rest.length < fuel) :
    repetitions once next fuel position ≠ .aborted ∧
      ((repetitions once next fuel position).succeeded = true ↔
        ∃ text ∈ language∗, ∃ rest, position.rest = text ++ rest ∧
          (next { position with rest }).succeeded = true) := by
  induction fuel generalizing position with
  | zero => exact absurd enough (Nat.not_lt_zero _)
  | succ fuel ih =>
      have shorter {later : Position} (inside : later.rest.length < position.rest.length) :
          later.rest.length < fuel := by omega
      obtain ⟨ends, matches_iff⟩ := reads
        (fun later =>
          if later.rest.length < position.rest.length then repetitions once next fuel later
          else next later)
        (fun later => by
          split
          · rename_i inside
            exact (ih (shorter inside)).1
          · exact quiet later)
        position
      unfold repetitions
      refine ⟨Verdict.orElse_ne_aborted ends (quiet position),
        (Verdict.succeeded_orElse ends).trans ?_⟩
      rw [matches_iff, exists_mem_kstar_iff, or_comm]
      refine or_congr_right' fun unmatched => ?_
      constructor
      · rintro ⟨text, among, rest, found, matched⟩
        split at matched
        · rename_i inside
          have nonempty : text ≠ [] := by
            rintro rfl
            exact absurd (congrArg List.length found) (Nat.ne_of_gt inside)
          exact ⟨text, among, nonempty, rest, found, (ih (shorter inside)).2.mp matched⟩
        · rename_i stays
          have nothing : text = [] := by
            have lengths := congrArg List.length found
            rw [List.length_append] at lengths
            exact List.length_eq_zero_iff.mp (by dsimp only at stays; omega)
          subst nothing
          have same : position = { position with rest } :=
            congrArg (fun rest => { position with rest }) found
          exact absurd (same ▸ matched) unmatched
      · rintro ⟨text, among, nonempty, rest, found, repeated⟩
        have inside : rest.length < position.rest.length := by
          have := List.length_pos_iff.mpr nonempty
          have lengths := congrArg List.length found
          rw [List.length_append] at lengths
          omega
        refine ⟨text, among, rest, found, ?_⟩
        rw [if_pos inside]
        exact (ih (shorter inside)).2.mpr repeated

open Computability in
theorem reads_many {regex : Regex} {language : Language Char}
    (reads : Reads (run length regex) language) : Reads (run length (.many regex)) language∗ :=
  fun _ quiet position => reads_repetitions reads quiet (Nat.lt_succ_self position.rest.length)

open Computability in
theorem mem_kstar_characters {accepts : Char → Bool} {text : List Char} :
    text ∈ (characters accepts)∗ ↔ ∀ c ∈ text, accepts c = true := by
  constructor
  · rintro ⟨texts, rfl, each⟩ c member
    obtain ⟨word, among, own⟩ := List.mem_flatten.mp member
    obtain ⟨d, accepted, rfl⟩ := each word among
    rw [List.mem_singleton.mp own]
    exact accepted
  · intro accepted
    refine ⟨text.map fun c => [c], (List.flatMap_singleton' text).symm, fun word member => ?_⟩
    obtain ⟨c, own, rfl⟩ := List.mem_map.mp member
    exact ⟨c, accepted c own, rfl⟩

open Computability in
/-- The repeated set reads a text of its characters that is not empty. -/
theorem reads_some_oneOf (accepts : Char → Bool) :
    Reads (run length (some (.oneOf accepts)))
      { text | text ≠ [] ∧ ∀ c ∈ text, accepts c = true } := by
  have language : characters accepts * (characters accepts)∗ =
      { text | text ≠ [] ∧ ∀ c ∈ text, accepts c = true } := by
    ext text
    rw [Language.mem_mul]
    constructor
    · rintro ⟨_, ⟨c, accepted, rfl⟩, more, repeated, rfl⟩
      exact ⟨List.cons_ne_nil c more,
        List.forall_mem_cons.mpr ⟨accepted, mem_kstar_characters.mp repeated⟩⟩
    · rintro ⟨nonempty, each⟩
      obtain ⟨c, more, rfl⟩ := List.exists_cons_of_ne_nil nonempty
      obtain ⟨accepted, others⟩ := List.forall_mem_cons.mp each
      exact ⟨[c], ⟨c, accepted, rfl⟩, more, mem_kstar_characters.mpr others, rfl⟩
  rw [← language]
  exact reads_seq (reads_oneOf accepts) (reads_many (reads_oneOf accepts))

/-- Expressions one after the other read texts one after the other. -/
theorem reads_sequence {regexes : List Regex} {languages : List (Language Char)}
    (each : List.Forall₂ (fun regex language => Reads (run length regex) language)
      regexes languages) :
    Reads (run length (sequence regexes)) languages.prod := by
  induction each with
  | nil => exact reads_empty
  | cons reads _ ih =>
      rw [List.prod_cons]
      exact reads_seq reads ih

theorem mem_prod_iff {languages : List (Language Char)} {text : List Char} :
    text ∈ languages.prod ↔
      ∃ texts, List.Forall₂ (· ∈ ·) texts languages ∧ texts.flatten = text := by
  induction languages generalizing text with
  | nil =>
      constructor
      · rintro rfl
        exact ⟨[], .nil, rfl⟩
      · rintro ⟨texts, each, rfl⟩
        cases each
        rfl
  | cons language languages ih =>
      rw [List.prod_cons, Language.mem_mul]
      constructor
      · rintro ⟨text, among, more, also, rfl⟩
        obtain ⟨texts, each, rfl⟩ := ih.mp also
        exact ⟨text :: texts, .cons among each, rfl⟩
      · rintro ⟨texts, each, rfl⟩
        cases each with
        | cons among rest => exact ⟨_, among, _, ih.mpr ⟨_, rest, rfl⟩, rfl⟩

end Reads

section Anchored

variable {regexes : List Regex} {subject : List Char} {language : Language Char}

theorem run_sequence_append (length : Nat) (regexes others : List Regex)
    (next : Position → Verdict) :
    run length (sequence (regexes ++ others)) next =
      run length (sequence regexes) (run length (sequence others) next) := by
  induction regexes with
  | nil => rfl
  | cons regex regexes ih => exact congrArg (run length regex) ih

theorem searchFrom_of_lt {regex : Regex} {length : Nat} {rest : List Char}
    (inside : rest.length < length) :
    searchFrom (.seq .startOfSubject regex) length rest = false := by
  have fails (position : Position) (inside : position.rest.length < length) :
      run length (.seq .startOfSubject regex) .matched position = .failed :=
    if_neg (Nat.ne_of_lt inside)
  induction rest with
  | nil =>
      unfold searchFrom
      rw [fails _ inside]
      rfl
  | cons c rest ih =>
      unfold searchFrom
      rw [fails _ inside]
      exact ih (Nat.lt_of_succ_lt inside)

/-- An expression that begins with `^` matches from the start of its subject on, or not at all. -/
theorem search_startOfSubject (regex : Regex) (subject : List Char) :
    search (.seq .startOfSubject regex) subject =
      (run subject.length regex .matched { rest := subject, marks := [] }).succeeded := by
  have starts : run subject.length (.seq .startOfSubject regex) .matched
      { rest := subject, marks := [] } =
        run subject.length regex .matched { rest := subject, marks := [] } := if_pos rfl
  rw [← starts]
  unfold search
  cases subject with
  | nil => rfl
  | cons c rest =>
      unfold searchFrom
      cases run (c :: rest).length (.seq .startOfSubject regex) .matched
          { rest := c :: rest, marks := [] } with
      | failed => exact searchFrom_of_lt (Nat.lt_succ_self _)
      | matched position => rfl
      | accepted => rfl
      | aborted => rfl

/-- It matches a prefix of its subject. -/
theorem search_sequence_iff
    (reads : Reads (run subject.length (sequence regexes)) language) :
    search (sequence (.startOfSubject :: regexes)) subject = true ↔
      ∃ text ∈ language, text <+: subject := by
  change search (.seq .startOfSubject (sequence regexes)) subject = true ↔ _
  rw [search_startOfSubject, (reads .matched nofun _).2]
  constructor
  · rintro ⟨text, among, rest, found, _⟩
    exact ⟨text, among, rest, found.symm⟩
  · rintro ⟨text, among, rest, found⟩
    exact ⟨text, among, rest, found.symm, rfl⟩

/-- With a `$` at its end, it matches a subject without line breaks as a whole. -/
theorem search_sequence_endOfSubject_iff (unbroken : '\n' ∉ subject)
    (reads : Reads (run subject.length (sequence regexes)) language) :
    search (sequence (.startOfSubject :: regexes ++ [.endOfSubject])) subject = true ↔
      subject ∈ language := by
  have atEnd (position : Position) :
      run subject.length (sequence [.endOfSubject]) .matched position ≠ .aborted := by
    change (if _ then Verdict.matched position else .failed) ≠ .aborted
    split <;> nofun
  change search (.seq .startOfSubject (sequence (regexes ++ [.endOfSubject]))) subject = true ↔ _
  rw [search_startOfSubject, run_sequence_append, (reads _ atEnd _).2]
  constructor
  · rintro ⟨text, among, rest, found, matched⟩
    have ended : rest = [] ∨ rest = ['\n'] := by
      by_contra goes_on
      exact absurd ((congrArg Verdict.succeeded (if_neg goes_on)).symm.trans matched)
        Bool.false_ne_true
    obtain rfl | rfl := ended
    · rw [show subject = text from found.trans (List.append_nil text)]
      exact among
    · rw [show subject = text ++ ['\n'] from found] at unbroken
      exact absurd (List.mem_append_right _ (List.mem_singleton_self _)) unbroken
  · intro among
    exact ⟨subject, among, [], (List.append_nil _).symm, rfl⟩

end Anchored

/-! ## What an expression sees of its subject -/

/-- The sets of the expression do not tell a character from what it is replaced by. -/
def Blind (replace : Char → Char) : Regex → Prop
  | .oneOf accepts => ∀ c, accepts (replace c) = accepts c
  | .seq first second => first.Blind replace ∧ second.Blind replace
  | .many regex | .possessive regex => regex.Blind replace
  | .empty | .startOfSubject | .endOfSubject | .verb _ => True

section Blind

variable {replace : Char → Char} {length : Nat}

def Position.map (replace : Char → Char) (position : Position) : Position :=
  { position with rest := position.rest.map replace }

def Verdict.map (replace : Char → Char) : Verdict → Verdict
  | .matched position => .matched (position.map replace)
  | verdict => verdict

theorem Verdict.map_orElse (verdict other : Verdict) :
    (verdict.orElse other).map replace = (verdict.map replace).orElse (other.map replace) := by
  cases verdict <;> rfl

theorem Verdict.succeeded_map (verdict : Verdict) :
    (verdict.map replace).succeeded = verdict.succeeded := by
  cases verdict <;> rfl

/-- The verdict on the replaced subject is the replaced verdict. -/
def Commutes (replace : Char → Char) (next other : Position → Verdict) : Prop :=
  ∀ position, other (position.map replace) = (next position).map replace

theorem commutes_repetitions {once : (Position → Verdict) → Position → Verdict}
    (commutes : ∀ next other, Commutes replace next other →
      Commutes replace (once next) (once other))
    {next other : Position → Verdict} (later : Commutes replace next other) (fuel : Nat) :
    Commutes replace (repetitions once next fuel) (repetitions once other fuel) := by
  induction fuel with
  | zero => exact later
  | succ fuel ih =>
      intro position
      unfold repetitions
      rw [Verdict.map_orElse, later position]
      congr 1
      apply commutes
      intro advanced
      have lengths : (advanced.map replace).rest.length < (position.map replace).rest.length ↔
          advanced.rest.length < position.rest.length := by
        unfold Position.map
        rw [List.length_map, List.length_map]
      dsimp only
      by_cases inside : advanced.rest.length < position.rest.length
      · rw [if_pos inside, if_pos (lengths.mpr inside)]
        exact ih advanced
      · rw [if_neg inside, if_neg (mt lengths.mp inside)]
        exact later advanced

theorem map_ended_iff (breaks : ∀ c, replace c = '\n' ↔ c = '\n') (rest : List Char) :
    rest.map replace = [] ∨ rest.map replace = ['\n'] ↔ rest = [] ∨ rest = ['\n'] := by
  rw [List.map_eq_nil_iff, List.map_eq_singleton_iff]
  apply or_congr_right
  constructor
  · rintro ⟨c, rfl, same⟩
    rw [(breaks c).mp same]
  · rintro rfl
    exact ⟨'\n', rfl, (breaks '\n').mpr rfl⟩

/-- An expression that cannot tell the characters apart matches the replaced subject as it matches
the subject. -/
theorem commutes_run (breaks : ∀ c, replace c = '\n' ↔ c = '\n') {regex : Regex}
    (blind : regex.Blind replace) {next other : Position → Verdict}
    (later : Commutes replace next other) :
    Commutes replace (run length regex next) (run length regex other) := by
  induction regex generalizing next other with
  | empty => exact later
  | oneOf accepts =>
      rintro ⟨subject, marks⟩
      cases subject with
      | nil => rfl
      | cons c rest =>
          change (if accepts (replace c) then _ else _) = _
          rw [blind c]
          unfold run
          dsimp only
          split
          · exact later { rest, marks }
          · rfl
  | seq first second ih_first ih_second => exact ih_first blind.1 (ih_second blind.2 later)
  | many regex ih =>
      intro position
      have lengths : (position.map replace).rest.length = position.rest.length :=
        List.length_map ..
      unfold run
      rw [lengths]
      exact commutes_repetitions (fun _ _ => ih blind) later _ position
  | possessive regex ih =>
      intro position
      have first : Commutes replace (run length regex .matched) (run length regex .matched) :=
        ih blind fun _ => rfl
      unfold run
      rw [first position]
      cases run length regex .matched position with
      | matched position => exact later position
      | failed => rfl
      | accepted => rfl
      | aborted => rfl
  | startOfSubject =>
      intro position
      have lengths : (position.map replace).rest.length = position.rest.length :=
        List.length_map ..
      unfold run
      rw [lengths]
      split
      · exact later position
      · rfl
  | endOfSubject =>
      intro position
      have ends : (position.map replace).rest = [] ∨ (position.map replace).rest = ['\n'] ↔
          position.rest = [] ∨ position.rest = ['\n'] := map_ended_iff breaks position.rest
      unfold run
      by_cases ended : position.rest = [] ∨ position.rest = ['\n']
      · rw [if_pos ended, if_pos (ends.mpr ended)]
        exact later position
      · rw [if_neg ended, if_neg (mt ends.mp ended)]
        rfl
  | verb verb =>
      intro position
      cases verb with
      | accept => rfl
      | fail => rfl
      | commit =>
          unfold run
          rw [later position, Verdict.map_orElse]
          rfl
      | mark name => exact later { position with marks := name :: position.marks }
      | skipTo name =>
          unfold run
          rw [later position, Verdict.map_orElse]
          congr 1
          unfold Position.map
          dsimp only
          split <;> rfl

theorem search_map (breaks : ∀ c, replace c = '\n' ↔ c = '\n') {regex : Regex}
    (blind : regex.Blind replace) (subject : List Char) :
    regex.search (subject.map replace) = regex.search subject := by
  have same (length : Nat) (rest : List Char) :
      searchFrom regex length (rest.map replace) = searchFrom regex length rest := by
    have first : Commutes replace (run length regex .matched) (run length regex .matched) :=
      commutes_run breaks blind fun _ => rfl
    induction rest with
    | nil =>
        exact (congrArg Verdict.succeeded (first { rest := [], marks := [] })).trans
          (Verdict.succeeded_map _)
    | cons c rest ih =>
        have start := first { rest := c :: rest, marks := [] }
        change run _ _ _ { rest := replace c :: rest.map replace, marks := [] } = _ at start
        rw [List.map_cons]
        unfold searchFrom
        rw [start]
        cases run length regex .matched { rest := c :: rest, marks := [] } with
        | failed => exact ih
        | matched position => rfl
        | accepted => rfl
        | aborted => rfl
  unfold search
  rw [List.length_map]
  exact same subject.length subject

end Blind

end Regex

end Foundation
