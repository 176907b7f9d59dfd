import ComponentTags.Json.Reader
import ComponentTags.Text.Blank
import ComponentTags.Text.Case
import ComponentTags.Text.Digit

/-!
# Typed environment values

An environment variable holds text. Text that spells a truth value, a whole number, a number with a
point or a JSON list or object is taken as that, with blanks around it ignored; any other text stands
for itself, blanks included. Digits may be of any script.
-/

namespace ComponentTags.Settings

/-- The digits around a point, if the text is made of at least one digit and one point. -/
def pointed? (s : List Char) : Option (List Char × List Char) :=
  let whole := s.takeWhile Text.isDigit
  match s.dropWhile Text.isDigit with
  | '.' :: fraction =>
    if fraction.all Text.isDigit && !(whole.isEmpty && fraction.isEmpty) then some (whole, fraction)
    else none
  | _ => none

/-- Whether a text stands between the brackets of a JSON list or object. -/
def isBracketed (s : List Char) : Bool :=
  (s.head? == some '\x7b' && s.getLast? == some '\x7d') ||
    (s.head? == some '[' && s.getLast? == some ']')

/-- The typed value of an environment variable. A whole number with too many digits is refused. -/
def coerce (text : String) : Except Decimal.NumeralError Value :=
  let s := Text.strip text.toList
  let word := Text.lower s
  let (negative, digits) := Decimal.splitSign s
  if word = "true".toList then .ok (.bool true)
  else if word = "false".toList then .ok (.bool false)
  else if !digits.isEmpty && digits.all Text.isDigit then
    if Decimal.maxDigits < digits.length then .error (.tooLong digits.length)
    else
      let n : Int := Text.digitsValue digits
      .ok (.int (if negative then -n else n))
  else
    match pointed? digits with
    | some (whole, fraction) =>
      let n := Text.digitsValue (whole ++ fraction)
      .ok (.float (Decimal.toFloat negative n (-fraction.length)))
    | none => .ok (if isBracketed s then (Json.read? s).getD (.text text) else .text text)

end ComponentTags.Settings
