import Mathlib.Data.List.Basic

/-!
# Strings joined by a delimiter

A field that does not contain the delimiter can be read back from the front of a
delimited string, so joining is injective on such fields. Decimal numbers are
such fields for every delimiter that is neither a digit nor the minus sign.
-/

namespace Foundation

namespace Delimited

/-- A field, the delimiter, and the rest. -/
def join (delimiter : Char) (field rest : String) : String :=
  field ++ (String.singleton delimiter ++ rest)

/-- The field cannot be confused with a longer one that ends at a delimiter. -/
def Free (delimiter : Char) (field : String) : Prop := delimiter ∉ field.toList

instance (delimiter : Char) (field : String) : Decidable (Free delimiter field) :=
  inferInstanceAs (Decidable (delimiter ∉ field.toList))

private theorem list_inj {Letter : Type*} {delimiter : Letter}
    {field other rest remaining : List Letter}
    (free : delimiter ∉ field) (otherFree : delimiter ∉ other)
    (equal : field ++ delimiter :: rest = other ++ delimiter :: remaining) :
    field = other ∧ rest = remaining := by
  induction field generalizing other with
  | nil =>
      cases other with
      | nil => exact ⟨rfl, (List.cons.inj equal).2⟩
      | cons letter letters =>
          have same : delimiter = letter := (List.cons.inj equal).1
          exact absurd (same ▸ List.mem_cons_self) otherFree
  | cons letter letters ih =>
      cases other with
      | nil =>
          have same : letter = delimiter := (List.cons.inj equal).1
          exact absurd (same ▸ List.mem_cons_self) free
      | cons first others =>
          obtain ⟨same, tails⟩ := List.cons.inj equal
          have smaller := ih (fun member => free (List.mem_cons_of_mem _ member))
            (fun member => otherFree (List.mem_cons_of_mem _ member)) tails
          exact ⟨by rw [same, smaller.1], smaller.2⟩

theorem toList_join (delimiter : Char) (field rest : String) :
    (join delimiter field rest).toList = field.toList ++ delimiter :: rest.toList := by
  unfold join
  rw [String.toList_append, String.toList_append, String.toList_singleton, List.singleton_append]

/-- Delimited strings are equal exactly when their first fields and their rests are. -/
theorem join_inj {delimiter : Char} {field other rest remaining : String}
    (free : Free delimiter field) (otherFree : Free delimiter other) :
    join delimiter field rest = join delimiter other remaining ↔
      field = other ∧ rest = remaining := by
  constructor
  · intro equal
    have letters := congrArg String.toList equal
    rw [toList_join, toList_join] at letters
    obtain ⟨fields, rests⟩ := list_inj free otherFree letters
    exact ⟨String.toList_inj.mp fields, String.toList_inj.mp rests⟩
  · rintro ⟨rfl, rfl⟩
    rfl

/-- The rest of a delimited string is determined when the first field is fixed. -/
theorem join_right_inj {delimiter : Char} {field rest remaining : String} :
    join delimiter field rest = join delimiter field remaining ↔ rest = remaining := by
  constructor
  · intro equal
    have letters := congrArg String.toList equal
    rw [toList_join, toList_join] at letters
    have tails := (List.cons.inj (List.append_cancel_left letters)).2
    exact String.toList_inj.mp tails
  · intro equal
    rw [equal]

/-- Joining is associative: a joined field reads as two fields. -/
theorem join_assoc (delimiter : Char) (field middle rest : String) :
    join delimiter (join delimiter field middle) rest =
      join delimiter field (join delimiter middle rest) := by
  unfold join
  simp only [String.append_assoc]

/-- The text before the first delimiter and the text after it. -/
def split? (delimiter : Char) (text : String) : Option (String × String) :=
  if Free delimiter text then none
  else some (String.ofList (text.toList.takeWhile (· != delimiter)),
    String.ofList (text.toList.dropWhile (· != delimiter)).tail)

/-- A joined string contains its delimiter. -/
theorem not_free_join (delimiter : Char) (field rest : String) :
    ¬ Free delimiter (join delimiter field rest) := by
  intro free
  apply free
  rw [toList_join]
  exact List.mem_append_right _ List.mem_cons_self

/-- A field can be split off again. -/
theorem split?_join {delimiter : Char} {field : String} (free : Free delimiter field)
    (rest : String) : split? delimiter (join delimiter field rest) = some (field, rest) := by
  have plain : ∀ letter ∈ field.toList, (letter != delimiter) = true := by
    intro letter member
    rw [bne_iff_ne]
    intro same
    rw [same] at member
    exact free member
  unfold split?
  rw [if_neg (not_free_join delimiter field rest), toList_join,
    List.takeWhile_append_of_pos plain, List.dropWhile_append_of_pos plain,
    List.takeWhile_cons_of_neg (by simp only [bne_self_eq_false, Bool.false_eq_true,
      not_false_eq_true]), List.dropWhile_cons_of_neg (by simp only [bne_self_eq_false,
      Bool.false_eq_true, not_false_eq_true]), List.append_nil, List.tail_cons,
    String.ofList_toList, String.ofList_toList]

section Lists

theorem join_ne_empty (delimiter : Char) (field rest : String) :
    join delimiter field rest ≠ "" := by
  intro empty
  have letters := congrArg String.toList empty
  rw [toList_join] at letters
  exact List.append_ne_nil_of_right_ne_nil _ (List.cons_ne_nil _ _) letters

/-- Fields with a delimiter between each two. -/
def joinAll (delimiter : Char) : List String → String
  | [] => ""
  | [field] => field
  | field :: next :: fields => join delimiter field (joinAll delimiter (next :: fields))

/-- One more field is joined to the end. -/
theorem joinAll_concat {delimiter : Char} {fields : List String} (nonempty : fields ≠ [])
    (last : String) :
    joinAll delimiter (fields ++ [last]) = join delimiter (joinAll delimiter fields) last := by
  induction fields using joinAll.induct with
  | case1 => exact absurd rfl nonempty
  | case2 field => rfl
  | case3 field next fields ih =>
      change join delimiter field (joinAll delimiter (next :: fields ++ [last])) = _
      rw [ih (List.cons_ne_nil _ _), ← join_assoc]
      rfl

/-- Joined fields contain no other delimiter than the fields do. -/
theorem free_joinAll {delimiter other : Char} {fields : List String} (different : other ≠ delimiter)
    (free : ∀ field ∈ fields, Free other field) : Free other (joinAll delimiter fields) := by
  induction fields using joinAll.induct with
  | case1 => exact List.not_mem_nil
  | case2 field => exact free field List.mem_cons_self
  | case3 field next fields ih =>
      intro member
      rw [joinAll, toList_join, List.mem_append, List.mem_cons] at member
      rcases member with first | same | rest
      · exact free field List.mem_cons_self first
      · exact different same
      · exact ih (fun field member => free field (List.mem_cons_of_mem _ member)) rest

/-- The texts between the delimiters. -/
def pieces (delimiter : Char) (text : String) : List String :=
  (text.toList.splitOn delimiter).map String.ofList

theorem pieces_of_free {delimiter : Char} {field : String} (free : Free delimiter field) :
    pieces delimiter field = [field] := by
  unfold pieces
  rw [List.splitOn_eq_singleton free, List.map_singleton, String.ofList_toList]

theorem pieces_injective {delimiter : Char} {text other : String}
    (equal : pieces delimiter text = pieces delimiter other) : text = other := by
  have letters := List.map_injective_iff.mpr (fun _ _ => String.ofList_injective) equal
  have joined := congrArg [delimiter].intercalate letters
  rw [List.intercalate_splitOn, List.intercalate_splitOn] at joined
  exact String.toList_inj.mp joined

theorem pieces_join (delimiter : Char) (field rest : String) :
    pieces delimiter (join delimiter field rest) =
      pieces delimiter field ++ pieces delimiter rest := by
  unfold pieces
  rw [toList_join, List.splitOn_append_cons_self, List.map_append]

/-- Joined fields fall into the pieces of the fields. -/
theorem pieces_joinAll {delimiter : Char} {fields : List String} (nonempty : fields ≠ []) :
    pieces delimiter (joinAll delimiter fields) = fields.flatMap (pieces delimiter) := by
  induction fields using joinAll.induct with
  | case1 => exact absurd rfl nonempty
  | case2 field => rw [joinAll, List.flatMap_cons, List.flatMap_nil, List.append_nil]
  | case3 field next fields ih =>
      rw [joinAll, pieces_join, ih (List.cons_ne_nil _ _)]
      exact List.flatMap_cons.symm

/-- Joined fields are equal exactly when they fall into the same pieces. -/
theorem joinAll_eq_iff {delimiter : Char} {fields others : List String} (nonempty : fields ≠ [])
    (otherNonempty : others ≠ []) :
    joinAll delimiter fields = joinAll delimiter others ↔
      fields.flatMap (pieces delimiter) = others.flatMap (pieces delimiter) := by
  rw [← pieces_joinAll nonempty, ← pieces_joinAll otherNonempty]
  exact ⟨congrArg _, pieces_injective⟩

theorem flatMap_pieces {delimiter : Char} {fields : List String}
    (free : ∀ field ∈ fields, Free delimiter field) :
    fields.flatMap (pieces delimiter) = fields := by
  induction fields with
  | nil => rfl
  | cons field fields ih =>
      rw [List.flatMap_cons, pieces_of_free (free field List.mem_cons_self),
        ih fun field member => free field (List.mem_cons_of_mem _ member), List.singleton_append]

/-- The fields of a list can be read back. -/
theorem joinAll_injective {delimiter : Char} {fields others : List String}
    (free : ∀ field ∈ fields, Free delimiter field)
    (otherFree : ∀ field ∈ others, Free delimiter field) (nonempty : fields ≠ [])
    (otherNonempty : others ≠ []) (equal : joinAll delimiter fields = joinAll delimiter others) :
    fields = others := by
  have same := (joinAll_eq_iff nonempty otherNonempty).mp equal
  rwa [flatMap_pieces free, flatMap_pieces otherFree] at same

/-- Fields that are not empty do not make an empty string. -/
theorem joinAll_ne_empty {delimiter : Char} {fields : List String} (nonempty : fields ≠ [])
    (filled : ∀ field ∈ fields, field ≠ "") : joinAll delimiter fields ≠ "" := by
  match fields with
  | [] => exact absurd rfl nonempty
  | [field] => exact filled field List.mem_cons_self
  | field :: next :: fields => exact join_ne_empty delimiter field _

end Lists

section Occurrences

variable {Letter : Type*} {delimiter : Letter} {word first rest : List Letter}

private theorem eq_nil_of_prefixed (free : delimiter ∉ word) (start : word <+: delimiter :: rest) :
    word = [] := by
  cases word with
  | nil => rfl
  | cons letter word =>
      obtain ⟨rfl, _⟩ := List.cons_prefix_cons.mp start
      exact absurd List.mem_cons_self free

/-- A word without the delimiter occurs on one side of it. -/
theorem infix_append_cons (free : delimiter ∉ word) :
    word <:+: first ++ delimiter :: rest ↔ word <:+: first ∨ word <:+: rest := by
  rw [List.infix_append_iff, List.infix_cons_iff]
  constructor
  · rintro (left | (start | right) | ⟨early, late, rfl, ends, starts⟩)
    · exact .inl left
    · rw [eq_nil_of_prefixed free start]
      exact .inl List.nil_infix
    · exact .inr right
    · rw [eq_nil_of_prefixed (fun member => free (List.mem_append_right _ member)) starts,
        List.append_nil]
      exact .inl ends.isInfix
  · rintro (left | right)
    · exact .inl left
    · exact .inr (.inl (.inr right))

/-- What starts at a delimiter after a mark starts behind the mark. -/
theorem exists_eq_append_of_later {mark more : List Letter} (free : delimiter ∉ mark)
    (nonempty : more ≠ [])
    (whole : delimiter :: mark ++ rest = more ++ delimiter :: word) :
    ∃ before, rest = before ++ delimiter :: word := by
  cases more with
  | nil => exact absurd rfl nonempty
  | cons letter more =>
      have tails := (List.cons.inj whole).2
      rcases List.append_eq_append_iff.mp tails with ⟨before, _, behind⟩ | ⟨last, inside, cut⟩
      · exact ⟨before, behind⟩
      · cases last with
        | nil => exact ⟨[], cut.symm⟩
        | cons letter last =>
            obtain ⟨rfl, _⟩ := List.cons.inj cut
            apply absurd _ free
            rw [inside]
            exact List.mem_append_right _ List.mem_cons_self

/-- A word that ends at the delimiter ends at the first one or occurs after it. -/
theorem concat_infix (free : delimiter ∉ word) (firstFree : delimiter ∉ first) :
    (word ++ [delimiter]) <:+: first ++ delimiter :: rest ↔
      word <:+ first ∨ (word ++ [delimiter]) <:+: rest := by
  have last : delimiter ∈ word ++ [delimiter] := List.mem_append_right _ List.mem_cons_self
  constructor
  · intro occurs
    rcases List.infix_append_iff.mp occurs with left | right | ⟨early, late, whole, ends, starts⟩
    · exact absurd (left.subset last) firstFree
    · rcases List.infix_cons_iff.mp right with start | right
      · cases word with
        | nil => exact .inl (List.nil_suffix)
        | cons letter word =>
            obtain ⟨rfl, _⟩ := List.cons_prefix_cons.mp start
            exact absurd List.mem_cons_self free
      · exact .inr right
    · cases late with
      | nil =>
          rw [List.append_nil] at whole
          rw [whole] at last
          exact absurd (ends.subset last) firstFree
      | cons letter late =>
          obtain ⟨rfl, _⟩ := List.cons_prefix_cons.mp starts
          have earlyFree := fun member => firstFree (ends.subset member)
          rw [(list_inj free earlyFree whole).1]
          exact .inl ends
  · rintro (⟨before, rfl⟩ | right)
    · exact ⟨before, rest, by simp only [List.append_assoc, List.singleton_append]⟩
    · exact List.infix_append_of_infix_right (List.infix_cons right)

/-- A word without the delimiter occurs in one of the fields. -/
theorem infix_joinAll {delimiter : Char} {word : List Char} {fields : List String}
    (free : delimiter ∉ word) (nonempty : fields ≠ []) :
    word <:+: (joinAll delimiter fields).toList ↔ ∃ field ∈ fields, word <:+: field.toList := by
  induction fields using joinAll.induct with
  | case1 => exact absurd rfl nonempty
  | case2 field => simp only [joinAll, List.mem_singleton, exists_eq_left]
  | case3 field next fields ih =>
      rw [joinAll, toList_join, infix_append_cons free, ih (List.cons_ne_nil _ _)]
      exact (List.exists_mem_cons_iff (word <:+: ·.toList) field _).symm

end Occurrences

section Decimal

private theorem nat_repr_injective {left right : Nat} (equal : left.repr = right.repr) :
    left = right := by
  have digits := congrArg String.toList equal
  rw [Nat.toList_repr, Nat.toList_repr] at digits
  have values := congrArg (Nat.ofDigitChars 10 · 0) digits
  simpa only [Nat.ofDigitChars_ten_toDigits] using values

private theorem isDigit_of_mem_repr {number : Nat} {letter : Char}
    (member : letter ∈ number.repr.toList) : letter.isDigit := by
  rw [Nat.toList_repr] at member
  exact Nat.isDigit_of_mem_toDigits (by decide) (by decide) member

/-- The letters of a decimal number are digits and the minus sign. -/
theorem mem_decimal {number : Int} {letter : Char} (member : letter ∈ number.repr.toList) :
    letter.isDigit ∨ letter = '-' := by
  rw [Int.repr_eq_if] at member
  split at member
  · exact .inl (isDigit_of_mem_repr member)
  · rw [String.toList_append, List.mem_append] at member
    rcases member with sign | digit
    · exact .inr (List.mem_singleton.mp sign)
    · exact .inl (isDigit_of_mem_repr digit)

/-- A decimal number does not contain a delimiter of another kind. -/
theorem free_decimal {delimiter : Char} (number : Int) (digit : delimiter.isDigit = false)
    (sign : delimiter ≠ '-') : Free delimiter number.repr := by
  intro member
  rcases mem_decimal member with isDigit | minus
  · rw [digit] at isDigit
    cases isDigit
  · exact sign minus

private theorem sign_ne_repr {negative positive : Nat} :
    "-" ++ negative.repr ≠ positive.repr := by
  intro equal
  have member : '-' ∈ positive.repr.toList := by
    rw [← equal, String.toList_append]
    exact List.mem_append_left _ (List.mem_singleton.mpr rfl)
  have digit := isDigit_of_mem_repr member
  revert digit
  decide

/-- Different numbers are written differently. -/
theorem decimal_injective {left right : Int} (equal : left.repr = right.repr) : left = right := by
  rw [Int.repr_eq_if, Int.repr_eq_if] at equal
  by_cases leftSign : 0 ≤ left
  · by_cases rightSign : 0 ≤ right
    · rw [if_pos leftSign, if_pos rightSign] at equal
      have values := nat_repr_injective equal
      omega
    · rw [if_pos leftSign, if_neg rightSign] at equal
      exact absurd equal.symm sign_ne_repr
  · by_cases rightSign : 0 ≤ right
    · rw [if_neg leftSign, if_pos rightSign] at equal
      exact absurd equal sign_ne_repr
    · rw [if_neg leftSign, if_neg rightSign] at equal
      have letters := congrArg String.toList equal
      rw [String.toList_append, String.toList_append] at letters
      have digits := String.toList_inj.mp (List.append_cancel_left letters)
      have values := nat_repr_injective digits
      omega

end Decimal

end Delimited

end Foundation
