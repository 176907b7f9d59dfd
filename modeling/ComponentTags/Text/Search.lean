/-!
# Searching a text

Marks at the start of a text, and cutting a text at the first occurrence of another.
-/

namespace ComponentTags.Text

/-- What follows a literal that the text starts with. -/
def afterLiteral : List Char → List Char → Option (List Char)
  | [], s => some s
  | _ :: _, [] => none
  | c :: literal, d :: s => if c = d then afterLiteral literal s else none

/-- The text before and behind the first occurrence of a literal. -/
def cutAt? (literal : List Char) : List Char → Option (List Char × List Char)
  | [] => (afterLiteral literal []).map fun rest => ([], rest)
  | c :: s =>
    match afterLiteral literal (c :: s) with
    | some rest => some ([], rest)
    | none => (cutAt? literal s).map fun (before, rest) => (c :: before, rest)

/-- The text with the mark in front, which is added only if the text does not start with it. -/
def withStart (mark s : List Char) : List Char :=
  if mark.isPrefixOf s then s else mark ++ s

/-- What follows the first occurrence of a literal; the whole text if there is none. -/
def afterFirst (literal s : List Char) : List Char :=
  match cutAt? literal s with
  | some (_, rest) => rest
  | none => s

theorem afterLiteral_eq_some_iff {literal s rest : List Char} :
    afterLiteral literal s = some rest ↔ s = literal ++ rest := by
  induction literal generalizing s with
  | nil => simp [afterLiteral, eq_comm]
  | cons c literal ih =>
    cases s with
    | nil => simp [afterLiteral]
    | cons d s =>
      by_cases h : c = d
      · subst h; simp [afterLiteral, ih]
      · simp [afterLiteral, h, Ne.symm h]

theorem cutAt?_eq_some {literal s before rest : List Char} (h : cutAt? literal s = some (before, rest)) :
    s = before ++ literal ++ rest := by
  induction s generalizing before with
  | nil =>
    obtain ⟨r, hr, heq⟩ := Option.map_eq_some_iff.1 h
    cases heq
    exact afterLiteral_eq_some_iff.1 hr
  | cons c s ih =>
    unfold cutAt? at h
    split at h
    · rename_i r hr
      cases h
      exact afterLiteral_eq_some_iff.1 hr
    · obtain ⟨⟨front, r⟩, hr, heq⟩ := Option.map_eq_some_iff.1 h
      cases heq
      rw [ih hr, List.cons_append, List.cons_append]

theorem cutAt?_length {literal s before rest : List Char}
    (h : cutAt? literal s = some (before, rest)) :
    before.length + literal.length + rest.length = s.length := by
  rw [cutAt?_eq_some h, List.length_append, List.length_append]

/-- The pieces of a text between the occurrences of a literal that is not empty. -/
def splitOn (literal : List Char) (s : List Char) : List (List Char) :=
  match _cut : cutAt? literal s with
  | some (before, rest) => if literal = [] then [s] else before :: splitOn literal rest
  | none => [s]
termination_by s.length
decreasing_by
  rename_i hne
  have hlen := cutAt?_length _cut
  have : 0 < literal.length := List.length_pos_iff.2 hne
  omega

/-- A text without the literal is one piece. -/
theorem splitOn_of_cutAt?_eq_none {literal s : List Char} (h : cutAt? literal s = none) :
    splitOn literal s = [s] := by
  rw [splitOn]
  split
  · rename_i before rest hcut
    rw [h] at hcut
    cases hcut
  · rfl

end ComponentTags.Text
