import ComponentTags.Attribute
import ComponentTags.Markup.ElementName
import ComponentTags.Pattern

/-!
# Slots

`<slot name="title">contents</slot>`. The header ends at the first `>`. The slot's name is the first
`name=` in the header whose quoted value ends in the header, `name` not being the tail of a longer
word. The contents run to the first closing slot tag, so slots do not nest, and a slot without a
closing tag is none.
-/

namespace ComponentTags.Markup

/-- Splits a text at the first `>`, which belongs to neither part. -/
def splitHeader? : List Char → Option (List Char × List Char) :=
  Attribute.closeQuote? '>'

/-- The quoted value behind `name=` at the head of a header. -/
def nameValue? (s : List Char) : Option (List Char) :=
  match Text.afterLiteral "name=".toList s with
  | some rest =>
    match rest with
    | c :: value =>
      if c = '"' || c = '\'' then (Attribute.closeQuote? c value).map (·.1) else none
    | [] => none
  | none => none

/-- The name in a header behind the character `last`. -/
def slotName? (last : Char) : List Char → Option (List Char)
  | [] => none
  | c :: s =>
    match if Attribute.isPlainNameChar last then none else nameValue? (c :: s) with
    | some name => some name
    | none => slotName? c s

/-- What follows a closing slot tag, in which white space may stand before each part. -/
def slotEnd? (s : List Char) : Option (List Char) :=
  match s with
  | '<' :: s =>
    match s.dropWhile Text.isBlank with
    | '/' :: s =>
      match Text.afterLiteral "slot".toList (s.dropWhile Text.isBlank) with
      | some s =>
        match s.dropWhile Text.isBlank with
        | '>' :: rest => some rest
        | _ => none
      | none => none
    | _ => none
  | _ => none

/-- The text up to the first closing slot tag, and what follows that tag. -/
def slotContents? (s : List Char) : Option (List Char × List Char) :=
  match slotEnd? s with
  | some rest => some ([], rest)
  | none =>
    match s with
    | [] => none
    | c :: s => (slotContents? s).map fun (contents, rest) => (c :: contents, rest)

/-- A slot as it is found: its name and its contents. -/
structure FoundSlot where
  name : List Char
  contents : List Char
  deriving DecidableEq, Repr

/-- A slot at the head of a text, and what follows. -/
def slot? (s : List Char) : Option (FoundSlot × List Char) :=
  match s with
  | '<' :: s =>
    match afterName Text.isBlank "slot".toList s with
    | some rest =>
      if endsName rest then
        match splitHeader? rest with
        | some (header, body) =>
          match slotName? 't' header with
          | some name => (slotContents? body).map fun (contents, rest) => (⟨name, contents⟩, rest)
          | none => none
        | none => none
      else none
    | none => none
  | _ => none

theorem slotEnd?_suffix {s rest : List Char} (h : slotEnd? s = some rest) : rest <:+ s := by
  unfold slotEnd? at h
  split at h
  · rename_i r
    split at h
    · rename_i t ht
      split at h
      · rename_i u hu
        split at h
        · rename_i v hv
          rw [Option.some.injEq] at h
          subst h
          have h₁ : '/' :: t <:+ r := ht ▸ List.dropWhile_suffix _
          have h₂ : u <:+ t.dropWhile Text.isBlank :=
            ⟨_, (Text.afterLiteral_eq_some_iff.1 hu).symm⟩
          have h₃ : '>' :: v <:+ u := hv ▸ List.dropWhile_suffix _
          exact (List.suffix_cons '>' v).trans (h₃.trans (h₂.trans ((List.dropWhile_suffix _).trans
            ((List.suffix_cons '/' t).trans (h₁.trans (List.suffix_cons '<' r))))))
        · simp at h
      · simp at h
    · simp at h
  · simp at h

theorem slotContents?_suffix {s contents rest : List Char}
    (h : slotContents? s = some (contents, rest)) : rest <:+ s := by
  induction s generalizing contents with
  | nil =>
    unfold slotContents? at h
    split at h
    · rename_i r hr
      simp only [Option.some.injEq, Prod.mk.injEq] at h
      exact h.2 ▸ slotEnd?_suffix hr
    · simp at h
  | cons c s ih =>
    unfold slotContents? at h
    split at h
    · rename_i r hr
      simp only [Option.some.injEq, Prod.mk.injEq] at h
      exact h.2 ▸ slotEnd?_suffix hr
    · obtain ⟨⟨inner, r⟩, hr, heq⟩ := Option.map_eq_some_iff.1 h
      simp only [Prod.mk.injEq] at heq
      obtain ⟨-, rfl⟩ := heq
      exact (ih hr).trans (List.suffix_cons c s)

theorem slot?_length_lt {s : List Char} {a : FoundSlot} {rest : List Char}
    (h : slot? s = some (a, rest)) : rest.length < s.length := by
  unfold slot? at h
  split at h
  · split at h
    · rename_i r hr
      split at h
      · split at h
        · rename_i header body hb
          split at h
          · obtain ⟨⟨inner, t⟩, ht, heq⟩ := Option.map_eq_some_iff.1 h
            simp only [Prod.mk.injEq] at heq
            obtain ⟨-, rfl⟩ := heq
            have h₁ := (slotContents?_suffix ht).length_le
            have h₂ := congrArg List.length (Attribute.closeQuote?_eq_some hb).1
            have h₃ := (afterName_suffix hr).length_le
            simp only [List.length_append, List.length_cons] at h₂
            simp only [List.length_cons]
            omega
          · simp at h
        · simp at h
      · simp at h
    · simp at h
  · simp at h

/-- The slots of a text. -/
def slot : Pattern FoundSlot where
  match? := slot?
  length_lt := slot?_length_lt

end ComponentTags.Markup
