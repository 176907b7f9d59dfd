import ComponentTags.Calendar
import ComponentTags.Text.Search

/-!
# Timestamps

Days such as `2001-12-14`, and moments such as `2001-12-14T21:59:43.1+01:00`, with a `T` or blanks in
front of the time. A day alone has two digits for its month and its day.
-/

namespace ComponentTags.Yaml

/-- A number of at least `least` and at most `most` digits, and what follows. -/
def numeral? (least most : Nat) (s : List Char) : Option (Nat × List Char) :=
  let digits := (s.takeWhile Char.isDigit).take most
  if digits.length < least then none
  else some (Nat.ofDigitChars 10 digits 0, s.drop digits.length)

def isInnerBlank (c : Char) : Bool :=
  c == ' ' || c == '\t'

/-- What follows the separator between a day and a time. -/
def afterDay? (s : List Char) : Option (List Char) :=
  match s with
  | c :: rest =>
    if c == 'T' || c == 't' then some rest
    else if isInnerBlank c then some (rest.dropWhile isInnerBlank)
    else none
  | [] => none

/-- The microseconds behind a time's seconds, and what follows. Digits beyond the sixth do not count. -/
def microseconds (s : List Char) : Nat × List Char :=
  match s with
  | '.' :: rest =>
    let digits := rest.takeWhile Char.isDigit
    let kept := (digits ++ List.replicate 6 '0').take 6
    (Nat.ofDigitChars 10 kept 0, rest.drop digits.length)
  | _ => (0, s)

/-- The minutes of an offset behind its hours, which end the text. -/
def zoneMinutes? (s : List Char) : Option Nat :=
  match s with
  | [] => some 0
  | ':' :: rest =>
    match numeral? 2 2 rest with
    | some (n, []) => some n
    | _ => none
  | _ => none

/-- The offset in minutes that ends a text; the text may end without one. -/
def zone? (s : List Char) : Option (Option Int) :=
  if s.isEmpty then some none
  else
    match s.dropWhile isInnerBlank with
    | ['Z'] => some (some 0)
    | sign :: rest =>
      if sign == '+' || sign == '-' then
        match numeral? 1 2 rest with
        | some (hours, rest) =>
          (zoneMinutes? rest).map fun minutes =>
            let offset : Int := hours * 60 + minutes
            some (if sign == '-' then -offset else offset)
        | none => none
      else none
    | [] => none

/-- The time that a text spells. -/
def clock? (s : List Char) : Option Clock := do
  let (hour, s) ← numeral? 1 2 s
  let s ← Text.afterLiteral [':'] s
  let (minute, s) ← numeral? 2 2 s
  let s ← Text.afterLiteral [':'] s
  let (second, s) ← numeral? 2 2 s
  let (fraction, s) := microseconds s
  let zone ← zone? s
  return ⟨hour, minute, second, fraction, zone⟩

/-- The moment that a text spells, whether there is such a day or not. -/
def moment? (s : List Char) : Option Moment := do
  let (year, rest) ← numeral? 4 4 s
  let rest ← Text.afterLiteral ['-'] rest
  let (month, rest) ← numeral? 1 2 rest
  let rest ← Text.afterLiteral ['-'] rest
  let (day, rest) ← numeral? 1 2 rest
  if rest.isEmpty then
    if s.length = 10 then return ⟨⟨year, month, day⟩, none⟩ else none
  else return ⟨⟨year, month, day⟩, some (← clock? (← afterDay? rest))⟩

end ComponentTags.Yaml
