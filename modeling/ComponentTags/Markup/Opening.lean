import ComponentTags.Attribute
import ComponentTags.Markup.ElementName
import ComponentTags.Pattern

/-!
# Opening tags

`<x-card title="Hi">`, which may span lines. Behind the name stand attributes, each behind white
space: a name, with a value in double quotes, in single quotes or bare. The first `>` outside quotes
must follow them at once or behind white space, and the character before it is not `/`, `=` or `-`.
Anything else is no opening tag.
-/

namespace ComponentTags.Markup

/-- The characters of a value without quotes. -/
def isBareValueChar (c : Char) : Bool :=
  !Text.isBlank c && c != '\'' && c != '"' && c != '=' && c != '<' && c != '>'

/-- The value behind an equals sign, and what follows. -/
def tagValue? (s : List Char) : Option (List Char × List Char) :=
  match Attribute.quotedRun? s with
  | some result => some result
  | none =>
    match s.takeWhile isBareValueChar with
    | [] => none
    | bare => some (bare, s.dropWhile isBareValueChar)

/-- An attribute at the head of a text, and what follows. -/
def tagAttribute? (s : List Char) : Option (List Char × List Char) :=
  match s.takeWhile Attribute.isNameChar with
  | [] => none
  | name =>
    match s.dropWhile Attribute.isNameChar with
    | '=' :: rest =>
      match tagValue? rest with
      | some (value, rest) => some (name ++ '=' :: value, rest)
      | none => some (name, '=' :: rest)
    | rest => some (name, rest)

/-- Whether a `>` may follow the character. -/
def mayPrecedeEnd (c : Char) : Bool :=
  c != '/' && c != '=' && c != '-'

theorem tagValue?_append {s value rest : List Char} (h : tagValue? s = some (value, rest)) :
    s = value ++ rest := by
  unfold tagValue? at h
  split at h
  · rename_i result hq
    rw [Option.some.injEq] at h
    subst h
    exact (Attribute.quotedRun?_append hq).1
  · split at h
    · simp at h
    · simp only [Option.some.injEq, Prod.mk.injEq] at h
      rw [← h.1, ← h.2]
      simp

theorem tagAttribute?_append {s item rest : List Char} (h : tagAttribute? s = some (item, rest)) :
    s = item ++ rest := by
  have hs := (List.takeWhile_append_dropWhile (p := Attribute.isNameChar) (l := s)).symm
  unfold tagAttribute? at h
  split at h
  · simp at h
  · split at h
    · rename_i hd
      split at h
      · rename_i hv
        simp only [Option.some.injEq, Prod.mk.injEq] at h
        rw [← h.1, ← h.2, List.append_assoc, List.cons_append, ← tagValue?_append hv, ← hd]
        exact hs
      · simp only [Option.some.injEq, Prod.mk.injEq] at h
        rw [← h.1, ← h.2, ← hd]
        exact hs
    · simp only [Option.some.injEq, Prod.mk.injEq] at h
      rw [← h.1, ← h.2, hs]
      simp

/-- The attribute text of an opening tag behind the character `last`, and what follows the tag. -/
def openingRest? (last : Char) (s : List Char) : Option (List Char × List Char) :=
  match s with
  | [] => none
  | c :: s =>
    if c = '>' then if mayPrecedeEnd last then some ([], s) else none
    else if Text.isBlank c then
      match _item : tagAttribute? (s.dropWhile Text.isBlank) with
      | some (item, rest) =>
        (openingRest? (item.getLastD c) rest).map fun (text, rest) =>
          (c :: s.takeWhile Text.isBlank ++ item ++ text, rest)
      | none =>
        match s.dropWhile Text.isBlank with
        | '>' :: rest => some (c :: s.takeWhile Text.isBlank, rest)
        | _ => none
    else none
termination_by s.length
decreasing_by
  have h₁ := congrArg List.length (tagAttribute?_append _item)
  have h₂ := (List.dropWhile_suffix (l := s) Text.isBlank).length_le
  simp only [List.length_append] at h₁
  simp only [List.length_cons]
  omega

theorem openingRest?_suffix {last : Char} {s text rest : List Char}
    (h : openingRest? last s = some (text, rest)) : rest <:+ s := by
  fun_induction openingRest? last s generalizing text with
  | case1 => simp at h
  | case2 =>
    simp only [Option.some.injEq, Prod.mk.injEq] at h
    exact h.2 ▸ List.suffix_cons _ _
  | case3 => simp at h
  | case4 last c s _ _ item rest' hitem ih =>
    obtain ⟨⟨inner, r⟩, hr, heq⟩ := Option.map_eq_some_iff.1 h
    simp only [Prod.mk.injEq] at heq
    obtain ⟨-, rfl⟩ := heq
    have hrest : rest' <:+ s.dropWhile Text.isBlank :=
      ⟨item, (tagAttribute?_append hitem).symm⟩
    exact (ih hr).trans (hrest.trans ((List.dropWhile_suffix _).trans (List.suffix_cons c s)))
  | case5 last c s _ _ _ r hr =>
    simp only [Option.some.injEq, Prod.mk.injEq] at h
    have hs : '>' :: r <:+ s := hr ▸ List.dropWhile_suffix _
    exact h.2 ▸ (List.suffix_cons '>' r).trans (hs.trans (List.suffix_cons c s))
  | case6 => simp at h
  | case7 => simp at h

/-- The attribute text of an opening tag of a name, and what follows the tag. -/
def opening? (name s : List Char) : Option (List Char × List Char) :=
  match s with
  | '<' :: s =>
    match afterName Text.isBlank name s with
    | some rest => openingRest? (name.getLastD '<') rest
    | none => none
  | _ => none

theorem opening?_length_lt {name s text rest : List Char}
    (h : opening? name s = some (text, rest)) : rest.length < s.length := by
  unfold opening? at h
  split at h
  · split at h
    · rename_i r hr
      have h₁ := (openingRest?_suffix h).length_le
      have h₂ := (afterName_suffix hr).length_le
      simp only [List.length_cons]
      omega
    · simp at h
  · simp at h

/-- The opening tags of a name; each stands for its attribute text. -/
def opening (name : List Char) : Pattern (List Char) where
  match? := opening? name
  length_lt := opening?_length_lt

end ComponentTags.Markup
