import ComponentTags.Text.Hex
import ComponentTags.Text.Search
import ComponentTags.Shared
import ComponentTags.Yaml.Fault
import ComponentTags.Yaml.Timestamp

/-!
# Plain scalars

What a scalar without quotes stands for in YAML 1.1: a truth value, null, a double, a whole number, a
day or a moment, or text. Whole numbers may be binary, octal, hexadecimal or in base sixty, numbers may
hold underscores, and an exponent needs a point and a sign.
-/

namespace ComponentTags.Yaml

def truthWords : List (String × Bool) :=
  ["yes", "Yes", "YES", "true", "True", "TRUE", "on", "On", "ON"].map (·, true) ++
    ["no", "No", "NO", "false", "False", "FALSE", "off", "Off", "OFF"].map (·, false)

def nullWords : List String := ["", "~", "null", "Null", "NULL"]

/-- The words for doubles that no digits spell. Only infinities have a sign. -/
def doubleWords : List (String × Float) :=
  let infinities (sign : String) (x : Float) :=
    [".inf", ".Inf", ".INF"].map fun word => (sign ++ word, x)
  infinities "" Decimal.infinity ++ infinities "+" Decimal.infinity ++
    infinities "-" (-Decimal.infinity) ++
    [".nan", ".NaN", ".NAN"].map (·, Decimal.notANumber)

/-- Words that stand for no value. -/
def reservedWords : List String := ["=", "<<"]

def isSpacedDigit (c : Char) : Bool :=
  c.isDigit || c == '_'

def withoutSpacing (s : List Char) : List Char :=
  s.filter (· != '_')

/-- Digits with underscores between or behind them. -/
def isSpacedNumeral (s : List Char) : Bool :=
  s.all isSpacedDigit && s.head?.any Char.isDigit

/-- A signed exponent that ends the text; no exponent counts as zero. -/
def exponent? (s : List Char) : Option Int :=
  match s with
  | [] => some 0
  | e :: sign :: digits =>
    if (e == 'e' || e == 'E') && !digits.isEmpty && digits.all Char.isDigit then
      let n : Int := Nat.ofDigitChars 10 digits 0
      if sign == '+' then some n else if sign == '-' then some (-n) else none
    else none
  | _ => none

/-- A decimal with a point. Without a digit before the point it has one behind it, and no sign. -/
def pointed? (s : List Char) : Option Float :=
  let (negative, body) := Decimal.splitSign s
  let whole := body.takeWhile isSpacedDigit
  match body.dropWhile isSpacedDigit with
  | '.' :: rest =>
    let fraction := rest.takeWhile isSpacedDigit
    let wellFormed :=
      if whole.isEmpty then body.length == s.length && fraction.head?.any Char.isDigit
      else isSpacedNumeral whole
    if wellFormed then
      (exponent? (rest.dropWhile isSpacedDigit)).map fun exponent =>
        let places := withoutSpacing fraction
        let digits := Nat.ofDigitChars 10 (withoutSpacing whole ++ places) 0
        Decimal.toFloat negative digits (exponent - places.length)
    else none
  | _ => none

/-- Whether a text is a place of a numeral in base sixty behind the first one. -/
def isSixtieth : List Char → Bool
  | [c] => c.isDigit
  | [c, d] => '0' ≤ c && c ≤ '5' && d.isDigit
  | _ => false

/-- The first place and the other places of a numeral in base sixty. -/
def sixtieths? (s : List Char) : Option (List Char × List (List Char)) :=
  match Text.splitOn [':'] s with
  | first :: p :: places =>
    if isSpacedNumeral first && (p :: places).all isSixtieth then some (first, p :: places) else none
  | _ => none

/-- The most places that a double in base sixty may have: the next one would weigh more than a double. -/
def maxPlaces : Nat := 174

/-- The double that places in base sixty stand for, the last place first. -/
def sixtiethsSum (places : List (List Char)) (fraction : List Char) : Float :=
  let value (place : List Char) (fraction : List Char) : Float :=
    let digits := withoutSpacing (place ++ fraction)
    Decimal.toFloat false (Nat.ofDigitChars 10 digits 0) (-(withoutSpacing fraction).length)
  let weighted := places.zipIdx.map fun (place, k) =>
    value place (if k = 0 then fraction else []) * Decimal.toFloat false (Nat.pow 60 k) 0
  weighted.foldl (· + ·) 0.0

/-- A numeral in base sixty with a point. -/
def pointedSixtieths? (s : List Char) : Option (Except Fault Float) :=
  let (negative, body) := Decimal.splitSign s
  match Text.cutAt? ['.'] body with
  | none => none
  | some (whole, fraction) =>
    if fraction.all isSpacedDigit then
      (sixtieths? whole).map fun (first, places) =>
        if maxPlaces ≤ places.length then .error (.numeral .tooHeavy)
        else
          let x := sixtiethsSum (places.reverse ++ [first]) fraction
          .ok (if negative then -x else x)
    else none

/-- A whole number in decimal digits, with a limit on their number. -/
def decimal (s : List Char) : Except Fault Nat :=
  let digits := withoutSpacing s
  if Decimal.maxDigits < digits.length then .error (.numeral (.tooLong digits.length))
  else .ok (Nat.ofDigitChars 10 digits 0)

/-- Digits in the base of a mark; at least one of them is needed. -/
def based (base : Nat) (isBaseDigit : Char → Bool) (s : List Char) : Option (Except Fault Nat) :=
  if s.isEmpty || !s.all fun c => isBaseDigit c || c == '_' then none
  else
    match withoutSpacing s with
    | [] => some (.error (.numeral (.noDigits base)))
    | digits => some (.ok (digits.foldl (fun n c => n * base + (Text.hexValue? c).getD 0) 0))

/-- The numeral without a sign, if the text spells a whole number. -/
def unsigned? (s : List Char) : Option (Except Fault Nat) :=
  match s with
  | ['0'] => some (.ok 0)
  | '0' :: 'b' :: digits => based 2 (fun c => c == '0' || c == '1') digits
  | '0' :: 'x' :: digits => based 16 (fun c => (Text.hexValue? c).isSome) digits
  | '0' :: digits => based 8 (fun c => '0' ≤ c && c ≤ '7') ('0' :: digits)
  | _ =>
    if isSpacedNumeral s then some (decimal s)
    else
      (sixtieths? s).map fun (first, places) =>
        (decimal first).map fun n =>
          places.foldl (fun n place => n * 60 + Nat.ofDigitChars 10 place 0) n

/-- The whole number that a text spells. -/
def integer? (s : List Char) : Option (Except Fault Int) :=
  let (negative, body) := Decimal.splitSign s
  (unsigned? body).map (·.map fun n => if negative then -(n : Int) else n)

/-- The value of a moment, if there is such a day and such a time. -/
def momentValue (m : Moment) : Except Fault Scalar :=
  match m.error? with
  | some e => .error (.moment e)
  | none => .ok (.moment m)

/-- The value of a plain scalar. -/
def plainValue (text : String) : Except Fault Scalar :=
  let s := text.toList
  match Assoc.get? truthWords text, Assoc.get? doubleWords text with
  | some b, _ => .ok (.bool b)
  | none, some x => .ok (.float x)
  | none, none =>
    if nullWords.contains text then .ok .null
    else if reservedWords.contains text then .error .malformed
    else
      match ((pointed? s).map .ok).or (pointedSixtieths? s), integer? s with
      | some x, _ => x.map .float
      | none, some n => n.map .int
      | none, none => ((moment? s).map momentValue).getD (.ok (.text text))

end ComponentTags.Yaml
