import ComponentTags.Decimal.Limit
import ComponentTags.Text.CodePoint
import ComponentTags.Text.Search
import ComponentTags.Value

/-!
# Reading JSON

A reader for JSON text that also takes `NaN`, `Infinity` and `-Infinity`. Strings may hold no control
characters, a key that comes twice keeps its place and takes its last value, and a number with a
fraction or an exponent is a double. An escape for half of a surrogate pair stands for the
replacement character.
-/

namespace ComponentTags.Json

def isBlank (c : Char) : Bool :=
  c == ' ' || c == '\t' || c == '\n' || c == '\r'

def skipBlanks (s : List Char) : List Char :=
  s.dropWhile isBlank

/-- The character that a one-letter escape stands for. -/
def letterEscape? : Char → Option Char
  | '"' => some '"'
  | '\\' => some '\\'
  | '/' => some '/'
  | 'b' => some (Char.ofNat 8)
  | 'f' => some (Char.ofNat 12)
  | 'n' => some '\n'
  | 'r' => some '\r'
  | 't' => some '\t'
  | _ => none

/-- Reads a code unit behind `\u`, and the second one of a surrogate pair. -/
def unitEscape? (s : List Char) : Option (Char × List Char) :=
  match Text.takeHex? 4 s with
  | none => none
  | some (high, rest) =>
    match Text.lowSurrogate? rest with
    | some (low, paired) =>
      if Text.isHighSurrogate high then some (Text.ofSurrogates high low, paired)
      else some (Text.ofCodePoint high, rest)
    | none => some (Text.ofCodePoint high, rest)

/-- Reads the rest of a string behind its opening quote; `fuel` bounds the number of characters. -/
def readString : Nat → List Char → Option (List Char × List Char)
  | 0, _ => none
  | _ + 1, [] => none
  | fuel + 1, c :: s =>
    if c == '"' then some ([], s)
    else if c.toNat < 32 then none
    else if c == '\\' then
      match s with
      | [] => none
      | 'u' :: s =>
        match unitEscape? s with
        | some (c, s) => (readString fuel s).map fun (text, rest) => (c :: text, rest)
        | none => none
      | l :: s =>
        match letterEscape? l with
        | some c => (readString fuel s).map fun (text, rest) => (c :: text, rest)
        | none => none
    else (readString fuel s).map fun (text, rest) => (c :: text, rest)

/-- The fraction of a number: its digits behind the point. -/
def readFraction (s : List Char) : Option (List Char × List Char) :=
  match s with
  | '.' :: r =>
    match r.takeWhile Char.isDigit with
    | [] => none
    | digits => some (digits, r.dropWhile Char.isDigit)
  | _ => none

/-- The exponent of a number. -/
def readExponent (s : List Char) : Option (Int × List Char) :=
  match s with
  | e :: r =>
    if e == 'e' || e == 'E' then
      let (negative, r) :=
        match r with
        | '-' :: r => (true, r)
        | '+' :: r => (false, r)
        | r => (false, r)
      match r.takeWhile Char.isDigit with
      | [] => none
      | digits =>
        let n : Int := Nat.ofDigitChars 10 digits 0
        some (if negative then -n else n, r.dropWhile Char.isDigit)
    else none
  | [] => none

/-- Reads a number behind its sign. -/
def readUnsigned (negative : Bool) (s : List Char) : Option (Value × List Char) :=
  let whole :=
    match s with
    | '0' :: _ => ['0']
    | _ => s.takeWhile Char.isDigit
  if whole.isEmpty then none
  else
    let rest := s.drop whole.length
    let (fraction, rest, hasFraction) :=
      match readFraction rest with
      | some (digits, rest) => (digits, rest, true)
      | none => ([], rest, false)
    let (exponent, rest, hasExponent) :=
      match readExponent rest with
      | some (n, rest) => (n, rest, true)
      | none => ((0 : Int), rest, false)
    let digits := Nat.ofDigitChars 10 (whole ++ fraction) 0
    if hasFraction || hasExponent then
      some (.float (Decimal.toFloat negative digits (exponent - fraction.length)), rest)
    else if Decimal.maxDigits < whole.length then none
    else some (.int (if negative then -(digits : Int) else digits), rest)

/-- The words that stand for values. -/
def literals : List (String × Value) :=
  [("null", .null), ("true", .bool true), ("false", .bool false),
   ("NaN", .float Decimal.notANumber), ("Infinity", .float Decimal.infinity),
   ("-Infinity", .float (-Decimal.infinity))]

/-- Reads a word or a number. -/
def readAtom (s : List Char) : Option (Value × List Char) :=
  let word := literals.findSome? fun (name, v) =>
    (Text.afterLiteral name.toList s).map fun rest => (v, rest)
  match word with
  | some result => some result
  | none =>
    match s with
    | '-' :: r => readUnsigned true r
    | _ => readUnsigned false s

/-- What nests in JSON. -/
inductive Container where
  | array | object
  deriving DecidableEq, Repr

def Container.name : Container → String
  | array => "array"
  | object => "object"

/-- Why there is no value: the text is no JSON, or a container in it lies deeper than the reader goes. -/
inductive Fault where
  | malformed
  | tooDeep (c : Container)
  deriving DecidableEq, Repr

/-- What was read, and the text behind it. -/
abbrev Read (α : Type) := Except Fault (α × List Char)

/-- A result that is missing where a text is malformed. -/
def orMalformed {α : Type} : Option α → Except Fault α
  | some a => .ok a
  | none => .error .malformed

mutual

/-- Reads a value in which brackets nest no deeper than `depth`; `fuel` bounds the nesting and the number of
items together. -/
def readValue (fuel depth : Nat) (s : List Char) : Read Value :=
  match fuel with
  | 0 => .error .malformed
  | fuel + 1 =>
    match s with
    | '"' :: r =>
      (orMalformed (readString (r.length + 1) r)).map fun (text, rest) => (.text (String.ofList text), rest)
    | '[' :: r =>
      match depth with
      | 0 => .error (.tooDeep .array)
      | depth + 1 =>
        match skipBlanks r with
        | ']' :: rest => .ok (.list [], rest)
        | r => (readItems fuel depth r).map fun (items, rest) => (.list items, rest)
    | '{' :: r =>
      match depth with
      | 0 => .error (.tooDeep .object)
      | depth + 1 =>
        match skipBlanks r with
        | '}' :: rest => .ok (.object [], rest)
        | r => (readFields fuel depth [] r).map fun (fields, rest) => (.object fields, rest)
    | _ => orMalformed (readAtom s)

/-- Reads the items of a list up to its closing bracket. -/
def readItems (fuel depth : Nat) (s : List Char) : Read (List Value) :=
  match fuel with
  | 0 => .error .malformed
  | fuel + 1 =>
    match readValue fuel depth s with
    | .error fault => .error fault
    | .ok (v, rest) =>
      match skipBlanks rest with
      | ']' :: rest => .ok ([v], rest)
      | ',' :: rest =>
        (readItems fuel depth (skipBlanks rest)).map fun (items, rest) => (v :: items, rest)
      | _ => .error .malformed

/-- Reads the fields of an object up to its closing brace; `fields` are those already read. -/
def readFields (fuel depth : Nat) (fields : Fields) (s : List Char) : Read Fields :=
  match fuel with
  | 0 => .error .malformed
  | fuel + 1 =>
    match s with
    | '"' :: r =>
      match readString (r.length + 1) r with
      | none => .error .malformed
      | some (key, rest) =>
        match skipBlanks rest with
        | ':' :: rest =>
          match readValue fuel depth (skipBlanks rest) with
          | .error fault => .error fault
          | .ok (v, rest) =>
            let fields := Assoc.insert fields (.text (String.ofList key)) v
            match skipBlanks rest with
            | '}' :: rest => .ok (fields, rest)
            | ',' :: rest => readFields fuel depth fields (skipBlanks rest)
            | _ => .error .malformed
        | _ => .error .malformed
    | _ => .error .malformed

end

/-- The value of a JSON text, which may stand between blanks, if it nests no deeper than `depth`. A text is read
from its start to its first fault. -/
def readWithin (depth : Nat) (s : List Char) : Except Fault Value :=
  match readValue (2 * s.length + 2) depth (skipBlanks s) with
  | .ok (v, rest) => if (skipBlanks rest).isEmpty then .ok v else .error .malformed
  | .error fault => .error fault

/-- The container at which reading a text ends because it lies deeper than `depth`, if there is one. -/
def tooDeep? (depth : Nat) (s : List Char) : Option Container :=
  match readWithin depth s with
  | .error (.tooDeep c) => some c
  | _ => none

/-- The value of a JSON text, however deep it nests. -/
def read? (s : List Char) : Option Value :=
  (readWithin s.length s).toOption

end ComponentTags.Json
