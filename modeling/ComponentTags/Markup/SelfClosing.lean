import ComponentTags.Markup.ElementName
import ComponentTags.Pattern

/-!
# Self-closing elements

`<x-card title="Hi" />`, all on one line. Behind the name the line is read from left to right for the
first `/>`, with white space before it left out of the attribute text. A quote opens a run up to the
next quote of its kind on the line, inside of which anything but a line feed may stand. If the line
cannot be read with that run, the quote is an ordinary character. A `>` outside all runs ends the
search.
-/

namespace ComponentTags.Markup

/-- The text up to the end of a tag, and what follows that end. -/
abbrev Reading := Option (List Char × List Char)

/-- A reading that starts one character earlier. -/
def Reading.extend (c : Char) : Reading → Reading :=
  Option.map fun (text, rest) => (c :: text, rest)

/-- What follows `/>`, which may stand behind white space. -/
def selfClosingEnd? (s : List Char) : Option (List Char) :=
  match s.dropWhile Text.isInlineBlank with
  | '/' :: '>' :: rest => some rest
  | _ => none

/-- The three readings that matter at a place of a line: from the place itself, and from the place
behind the next quote of either kind, with the text before that quote included. -/
structure LineReading where
  here : Reading
  pastDouble : Reading
  pastSingle : Reading

/-- Reads a line. Each place is read with the help of the place behind it, so no place is read twice. -/
def readLine : List Char → LineReading
  | [] => ⟨none, none, none⟩
  | c :: s =>
    if c = '\n' then ⟨none, none, none⟩
    else
      let behind := readLine s
      let asRun :=
        if c = '"' then behind.pastDouble else if c = '\'' then behind.pastSingle else none
      let asCharacter := if c = '>' then none else behind.here
      { here :=
          match selfClosingEnd? (c :: s) with
          | some rest => some ([], rest)
          | none => Reading.extend c (asRun.or asCharacter)
        pastDouble := Reading.extend c (if c = '"' then behind.here else behind.pastDouble)
        pastSingle := Reading.extend c (if c = '\'' then behind.here else behind.pastSingle) }

/-- The attribute text of a self-closing element behind its name, and what follows the element. -/
def selfClosing? (name s : List Char) : Reading :=
  match s with
  | '<' :: s =>
    match afterName Text.isInlineBlank name s with
    | some rest =>
      if endsName rest then (readLine (rest.dropWhile Text.isInlineBlank)).here else none
    | none => none
  | _ => none

theorem Reading.extend_eq_some {c : Char} {r : Reading} {text rest : List Char}
    (h : Reading.extend c r = some (text, rest)) : ∃ inner, r = some (inner, rest) := by
  cases r with
  | none => simp [Reading.extend] at h
  | some p =>
    simp only [Reading.extend, Option.map_some, Option.some.injEq, Prod.mk.injEq] at h
    exact ⟨p.1, by rw [← h.2]⟩

theorem selfClosingEnd?_suffix {s rest : List Char} (h : selfClosingEnd? s = some rest) :
    rest <:+ s := by
  unfold selfClosingEnd? at h
  split at h
  · rename_i r hr
    rw [Option.some.injEq] at h
    subst h
    have hs : '/' :: '>' :: r <:+ s := hr ▸ List.dropWhile_suffix _
    exact (List.suffix_cons '>' r).trans ((List.suffix_cons '/' _).trans hs)
  · simp at h

theorem readLine_suffix (s : List Char) {text rest : List Char} :
    ((readLine s).here = some (text, rest) → rest <:+ s) ∧
    ((readLine s).pastDouble = some (text, rest) → rest <:+ s) ∧
    ((readLine s).pastSingle = some (text, rest) → rest <:+ s) := by
  induction s generalizing text with
  | nil => simp [readLine]
  | cons c s ih =>
    have up {r : List Char} (h : r <:+ s) : r <:+ c :: s := h.trans (List.suffix_cons c s)
    have run {quote : Char} {r : Reading} (hr : ∀ {t}, r = some (t, rest) → rest <:+ s)
        (h : Reading.extend c (if c = quote then (readLine s).here else r) = some (text, rest)) :
        rest <:+ c :: s := by
      obtain ⟨t, ht⟩ := Reading.extend_eq_some h
      split at ht
      · exact up (ih.1 ht)
      · exact up (hr ht)
    by_cases hn : c = '\n'
    · simp [readLine, hn]
    · simp only [readLine, hn, if_false]
      refine ⟨fun h => ?_, run (fun h => ih.2.1 h), run (fun h => ih.2.2 h)⟩
      split at h
      · rename_i r hend
        simp only [Option.some.injEq, Prod.mk.injEq] at h
        exact h.2 ▸ selfClosingEnd?_suffix hend
      · obtain ⟨t, ht⟩ := Reading.extend_eq_some h
        rcases Option.or_eq_some_iff.1 ht with h | ⟨-, h⟩
        · split at h
          · exact up (ih.2.1 h)
          · split at h
            · exact up (ih.2.2 h)
            · simp at h
        · split at h
          · simp at h
          · exact up (ih.1 h)

theorem selfClosing?_length_lt {name s text rest : List Char}
    (h : selfClosing? name s = some (text, rest)) : rest.length < s.length := by
  unfold selfClosing? at h
  split at h
  · split at h
    · rename_i r hr
      split at h
      · have h₁ := ((readLine_suffix _).1 h).length_le
        have h₂ := (List.dropWhile_suffix (l := r) Text.isInlineBlank).length_le
        have h₃ := (afterName_suffix hr).length_le
        simp only [List.length_cons]
        omega
      · simp at h
    · simp at h
  · simp at h

/-- The self-closing elements of a name; each stands for its attribute text. -/
def selfClosing (name : List Char) : Pattern (List Char) where
  match? := selfClosing? name
  length_lt := selfClosing?_length_lt

end ComponentTags.Markup
