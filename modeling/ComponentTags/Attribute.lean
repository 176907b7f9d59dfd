import ComponentTags.Assoc
import ComponentTags.Text.Digit
import ComponentTags.Text.Name
import ComponentTags.Text.Search
import ComponentTags.Text.Word

/-!
# Attributes

The attributes of a tag, read from the text between the tag's name and its end. A literal attribute
`title="Hi"` gives the quoted text `'Hi'`; a bound one, `:count="n"` or `bind:count="n"`, gives the
expression `n`; a bare one is bound to `true`. Keys are in camel case, and an attribute that comes
again overwrites the earlier value in its place. Text that is no attribute is passed over.
-/

namespace ComponentTags.Attribute

/-- The marker in front of the name of a bound attribute. -/
def bindMarker : List Char := "bind:".toList

/-- The characters of a name that follow a colon of the shorthand: word characters and hyphens. -/
def isPlainNameChar (c : Char) : Bool :=
  Text.isWord c || c == '-'

/-- The characters of a name behind its first one. -/
def isNameChar (c : Char) : Bool :=
  isPlainNameChar c || c == ':'

/-- Splits a text behind the first `quote`: the text before the quote and the text behind it. -/
def closeQuote? (quote : Char) : List Char → Option (List Char × List Char)
  | [] => none
  | c :: s =>
    if c = quote then some ([], s)
    else (closeQuote? quote s).map fun (inner, rest) => (c :: inner, rest)

theorem closeQuote?_eq_some {quote : Char} {s inner rest : List Char}
    (h : closeQuote? quote s = some (inner, rest)) :
    s = inner ++ quote :: rest ∧ quote ∉ inner := by
  induction s generalizing inner with
  | nil => simp [closeQuote?] at h
  | cons c s ih =>
    by_cases hc : c = quote
    · simp only [closeQuote?, hc, if_true, Option.some.injEq, Prod.mk.injEq] at h
      simp [← h.1, h.2, hc]
    · simp only [closeQuote?, hc, if_false] at h
      cases hs : closeQuote? quote s with
      | none => simp [hs] at h
      | some p =>
        obtain ⟨i, r⟩ := p
        simp only [hs, Option.map_some, Option.some.injEq, Prod.mk.injEq] at h
        obtain ⟨rfl, rfl⟩ := h
        obtain ⟨rfl, hi⟩ := ih hs
        simp [hi, Ne.symm hc]

/-- A run between two equal quotes at the start of a text, with its quotes, and the text behind it. -/
def quotedRun? : List Char → Option (List Char × List Char)
  | c :: s =>
    if c = '"' || c = '\'' then
      (closeQuote? c s).map fun (inner, rest) => (c :: inner ++ [c], rest)
    else none
  | [] => none

theorem quotedRun?_append {s run rest : List Char} (h : quotedRun? s = some (run, rest)) :
    s = run ++ rest ∧ 2 ≤ run.length := by
  cases s with
  | nil => simp [quotedRun?] at h
  | cons c s =>
    simp only [quotedRun?] at h
    split at h
    · cases hs : closeQuote? c s with
      | none => simp [hs] at h
      | some p =>
        obtain ⟨inner, r⟩ := p
        simp only [hs, Option.map_some, Option.some.injEq, Prod.mk.injEq] at h
        obtain ⟨rfl, rfl⟩ := h
        obtain ⟨rfl, -⟩ := closeQuote?_eq_some hs
        simp
    · simp at h

/-- A shorthand name behind its colon: the longest run of word characters and hyphens, and what follows. -/
def shorthand? : List Char → Option (List Char × List Char)
  | ':' :: s =>
    match s.takeWhile isPlainNameChar with
    | [] => none
    | name => some (name, s.dropWhile isPlainNameChar)
  | _ => none

theorem shorthand?_append {s name rest : List Char} (h : shorthand? s = some (name, rest)) :
    s = ':' :: name ++ rest := by
  unfold shorthand? at h
  split at h
  · split at h
    · simp at h
    · simp only [Option.some.injEq, Prod.mk.injEq] at h
      rw [← h.1, ← h.2]
      simp
  · simp at h

/-- Writes each shorthand `:name` as `bind:name`, from a place that is not the start of the text. A
shorthand follows white space, and quoted runs are passed over. -/
def expandRest (s : List Char) : List Char :=
  match _run : quotedRun? s with
  | some (run, rest) => run ++ expandRest rest
  | none =>
    match s with
    | [] => []
    | c :: s =>
      if Text.isBlank c then
        match _name : shorthand? s with
        | some (name, rest) => c :: bindMarker ++ name ++ expandRest rest
        | none => c :: expandRest s
      else c :: expandRest s
termination_by s.length
decreasing_by
  · have h := quotedRun?_append _run
    rw [h.1, List.length_append]
    omega
  · have h := shorthand?_append _name
    rw [h]
    simp only [List.length_cons, List.length_append]
    omega
  · simp
  · simp

/-- Writes each shorthand `:name` at the start of the text or after white space as `bind:name`. -/
def expandShorthand (s : List Char) : List Char :=
  match shorthand? s with
  | some (name, rest) => bindMarker ++ name ++ expandRest rest
  | none => expandRest s

/-- The name of an attribute at the start of a text, and what follows. A colon may stand in front of it. -/
def name? : List Char → Option (List Char × List Char)
  | ':' :: c :: s =>
    if isPlainNameChar c then some (':' :: c :: s.takeWhile isNameChar, s.dropWhile isNameChar)
    else none
  | c :: s =>
    if isPlainNameChar c then some (c :: s.takeWhile isNameChar, s.dropWhile isNameChar) else none
  | [] => none

theorem name?_append {s name rest : List Char} (h : name? s = some (name, rest)) :
    s = name ++ rest ∧ 0 < name.length := by
  unfold name? at h
  split at h
  · split at h
    · simp only [Option.some.injEq, Prod.mk.injEq] at h
      rw [← h.1, ← h.2]
      simp
    · simp at h
  · split at h
    · simp only [Option.some.injEq, Prod.mk.injEq] at h
      rw [← h.1, ← h.2]
      simp
    · simp at h
  · simp at h

/-- The characters of a value without quotes. -/
def isBareChar (c : Char) : Bool :=
  !Text.isBlank c && c != '>'

/-- The value behind a name, without its equals sign and with its quotes, and what follows. -/
def value? : List Char → Option (List Char × List Char)
  | '=' :: s =>
    match quotedRun? s with
    | some result => some result
    | none =>
      match s.takeWhile isBareChar with
      | [] => none
      | bare => some (bare, s.dropWhile isBareChar)
  | _ => none

theorem value?_append {s value rest : List Char} (h : value? s = some (value, rest)) :
    s = '=' :: value ++ rest := by
  unfold value? at h
  split at h
  · split at h
    · rename_i result hq
      rw [Option.some.injEq] at h
      subst h
      simp [(quotedRun?_append hq).1]
    · split at h
      · simp at h
      · simp only [Option.some.injEq, Prod.mk.injEq] at h
        rw [← h.1, ← h.2]
        simp
  · simp at h

/-- An attribute as it is written: its name and its value, if it has one. -/
structure Written where
  name : List Char
  value : Option (List Char)
  deriving DecidableEq, Repr

/-- The attributes in a text. At each place the longest attribute is taken; where none starts, one
character is passed over. -/
def extract (s : List Char) : List Written :=
  match _name : name? s with
  | some (name, rest) =>
    match _value : value? rest with
    | some (value, rest) => ⟨name, some value⟩ :: extract rest
    | none => ⟨name, none⟩ :: extract rest
  | none =>
    match s with
    | [] => []
    | _ :: s => extract s
termination_by s.length
decreasing_by
  · have hn := name?_append _name
    have hv := value?_append _value
    rw [hn.1, List.length_append, hv]
    simp only [List.cons_append, List.length_cons, List.length_append]
    omega
  · have hn := name?_append _name
    rw [hn.1, List.length_append]
    omega
  · simp

/-- A value without the quotes that enclose it. -/
def unquote (value : List Char) : List Char :=
  match value with
  | c :: rest =>
    if (c == '"' || c == '\'') && rest.getLast? == some c then rest.dropLast else value
  | [] => value

/-- A text as a literal of the renderer: in single quotes, with a backslash before each single quote. -/
def literal (value : List Char) : List Char :=
  '\'' :: (value.flatMap fun c => if c = '\'' then ['\\', '\''] else [c]) ++ ['\'']

/-- The key and the emitted value of a written attribute. -/
def Written.entry (a : Written) : List Char × List Char :=
  let name := Text.camelCase a.name
  match a.value with
  | none => (Text.afterFirst bindMarker (Text.withStart bindMarker name), "true".toList)
  | some value =>
    if bindMarker.isPrefixOf name then (Text.afterFirst bindMarker name, unquote value)
    else (name, literal (unquote value))

/-- The attributes of a text: emitted values under their keys. -/
def parse (s : List Char) : Assoc String String :=
  Assoc.ofList ((extract (expandShorthand s)).map fun a =>
    (String.ofList a.entry.1, String.ofList a.entry.2))

end ComponentTags.Attribute
