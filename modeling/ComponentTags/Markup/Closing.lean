import ComponentTags.Markup.ElementName
import ComponentTags.Pattern

/-!
# Closing tags

`</x-card>`, with white space allowed before the name. Whatever stands between the name and the
first `>` belongs to the tag.
-/

namespace ComponentTags.Markup

/-- What follows the first `>`. -/
def afterTagEnd? (s : List Char) : Option (List Char) :=
  match s.dropWhile (· != '>') with
  | _ :: rest => some rest
  | [] => none

/-- What follows a closing tag of a name. -/
def closing? (name s : List Char) : Option (Unit × List Char) :=
  match s with
  | '<' :: '/' :: s =>
    match afterName Text.isBlank name s with
    | some rest => if endsName rest then (afterTagEnd? rest).map fun rest => ((), rest) else none
    | none => none
  | _ => none

theorem afterTagEnd?_suffix {s rest : List Char} (h : afterTagEnd? s = some rest) : rest <:+ s := by
  unfold afterTagEnd? at h
  split at h
  · rename_i c r hr
    rw [Option.some.injEq] at h
    subst h
    have hs : c :: r <:+ s := hr ▸ List.dropWhile_suffix _
    exact (List.suffix_cons c r).trans hs
  · simp at h

theorem closing?_length_lt {name s : List Char} {a : Unit} {rest : List Char}
    (h : closing? name s = some (a, rest)) : rest.length < s.length := by
  unfold closing? at h
  split at h
  · split at h
    · rename_i r hr
      split at h
      · obtain ⟨rest', hrest, heq⟩ := Option.map_eq_some_iff.1 h
        simp only [Prod.mk.injEq] at heq
        have h₁ := (heq.2 ▸ afterTagEnd?_suffix hrest).length_le
        have h₂ := (afterName_suffix hr).length_le
        simp only [List.length_cons]
        omega
      · simp at h
    · simp at h
  · simp at h

/-- The closing tags of a name. -/
def closing (name : List Char) : Pattern Unit where
  match? := closing? name
  length_lt := closing?_length_lt

end ComponentTags.Markup
