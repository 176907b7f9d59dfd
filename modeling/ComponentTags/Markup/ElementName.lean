import ComponentTags.Text.Blank
import ComponentTags.Text.Search
import ComponentTags.Text.Word

/-!
# Element names

The name behind the `<` of an element. White space may stand before it, and the name must not be the
beginning of a longer one: `<x-card-item>` is no `x-card`.
-/

namespace ComponentTags.Markup

/-- The characters that would continue a name. -/
def continuesName (c : Char) : Bool :=
  Text.isWord c || c == ':' || c == '.' || c == '-'

/-- Whether a name that stands before the text ends there. -/
def endsName : List Char → Bool
  | [] => true
  | c :: _ => !continuesName c

/-- What follows a name that may stand behind white space. The white space may end in the name's own
first characters, as in the case of a name that starts with a line feed. -/
def afterName (blank : Char → Bool) (name : List Char) : List Char → Option (List Char)
  | [] => Text.afterLiteral name []
  | c :: s =>
    if blank c then
      match afterName blank name s with
      | some rest => some rest
      | none => Text.afterLiteral name (c :: s)
    else Text.afterLiteral name (c :: s)

theorem eq_append_of_afterName {blank : Char → Bool} {name s rest : List Char}
    (h : afterName blank name s = some rest) :
    ∃ gap, s = gap ++ name ++ rest ∧ gap.all blank = true := by
  induction s with
  | nil => exact ⟨[], by simpa using Text.afterLiteral_eq_some_iff.1 h, rfl⟩
  | cons c s ih =>
    simp only [afterName] at h
    split at h
    · rename_i hc
      split at h
      · rename_i inner hs
        rw [Option.some.injEq] at h
        subst h
        obtain ⟨gap, hgap, hall⟩ := ih hs
        exact ⟨c :: gap, by simp [hgap], by simp [hc, hall]⟩
      · exact ⟨[], by simpa using Text.afterLiteral_eq_some_iff.1 h, rfl⟩
    · exact ⟨[], by simpa using Text.afterLiteral_eq_some_iff.1 h, rfl⟩

theorem afterName_suffix {blank : Char → Bool} {name s rest : List Char}
    (h : afterName blank name s = some rest) : rest <:+ s := by
  obtain ⟨gap, hgap, -⟩ := eq_append_of_afterName h
  exact ⟨gap ++ name, hgap.symm⟩

end ComponentTags.Markup
