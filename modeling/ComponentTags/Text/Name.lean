import ComponentTags.Text.Blank
import ComponentTags.Text.Case

/-!
# Names in camel case and in kebab case

An attribute is written `data-id` and emitted as `dataId`; a view `alertBox` gives the tag
`alert-box`. Hyphens and underscores separate words. Any other character, such as the colon of a
`bind:` marker, belongs to its word.
-/

namespace ComponentTags.Text

/-- The characters that separate the words of a name. -/
def isSeparator (c : Char) : Bool :=
  c == '-' || c == '_'

/-- The words of a name: its longest runs without separators and white space. -/
def words : List Char → List (List Char)
  | [] => []
  | c :: r =>
    if isSeparator c || isBlank c then words r
    else
      match r, words r with
      | [], _ => [[c]]
      | _ :: _, [] => [[c]]
      | d :: _, w :: ws => if isSeparator d || isBlank d then [c] :: w :: ws else (c :: w) :: ws

/-- A word with its first character in capital form. -/
def capitalize : List Char → List Char
  | [] => []
  | c :: r => upperChar c ++ r

/-- A word with its first character in small form. -/
def uncapitalize : List Char → List Char
  | [] => []
  | c :: r => lowerChar c ++ r

/-- All words joined, each with a capital. -/
def studlyCase (s : List Char) : List Char :=
  (words s).flatMap capitalize

/-- All words joined, each with a capital but the first. -/
def camelCase (s : List Char) : List Char :=
  uncapitalize (studlyCase s)

/-- Puts a hyphen between an ASCII small letter or digit and an ASCII capital after it. -/
def splitCapitals : List Char → List Char
  | c :: d :: r =>
    if (c.isLower || c.isDigit) && d.isUpper then c :: '-' :: splitCapitals (d :: r)
    else c :: splitCapitals (d :: r)
  | s => s

/-- Replaces every longest run of characters that satisfy `p` by one hyphen. -/
def hyphenateRuns (p : Char → Bool) : List Char → List Char
  | [] => []
  | c :: r =>
    if p c then
      match r with
      | [] => ['-']
      | d :: _ => if p d then hyphenateRuns p r else '-' :: hyphenateRuns p r
    else c :: hyphenateRuns p r

/-- The name in small letters with a hyphen between words. -/
def kebabCase (s : List Char) : List Char :=
  lower (hyphenateRuns isSeparator (hyphenateRuns isBlank (splitCapitals s)))

end ComponentTags.Text
