import ComponentTags.Value

/-!
# Writing JSON

JSON text on one line or with one item a line. Every character beyond ASCII is escaped, and a character
beyond the first plane takes two escapes. The numbers that JSON lacks are written `NaN`, `Infinity` and
`-Infinity`.
-/

namespace ComponentTags.Json

/-- A code unit as an escape. -/
def unitEscape (n : Nat) : List Char :=
  '\\' :: 'u' :: Text.hexDigits 4 n

def escapedChar (c : Char) : List Char :=
  if c == '"' || c == '\\' then ['\\', c]
  else if c == '\n' then ['\\', 'n']
  else if c == '\r' then ['\\', 'r']
  else if c == '\t' then ['\\', 't']
  else if c.toNat == 8 then ['\\', 'b']
  else if c.toNat == 12 then ['\\', 'f']
  else if 32 ≤ c.toNat && c.toNat < 127 then [c]
  else if c.toNat < 0x10000 then unitEscape c.toNat
  else
    let n := c.toNat - 0x10000
    unitEscape (0xD800 + n / 0x400) ++ unitEscape (0xDC00 + n % 0x400)

/-- A text as a JSON string. -/
def string (s : String) : String :=
  String.ofList ('"' :: s.toList.flatMap escapedChar ++ ['"'])

def number (x : Float) : String :=
  match Decimal.floatText x with
  | "nan" => "NaN"
  | "inf" => "Infinity"
  | "-inf" => "-Infinity"
  | s => s

/-- A key as a JSON string: null, truth values and numbers are written as they are between quotes. -/
def keyText : Key → String
  | .text s => string s
  | .null => string "null"
  | .bool true => string "true"
  | .bool false => string "false"
  | .int n => string (Decimal.intText n)
  | .float bits => string (number (Float.ofBits bits))
  | .moment m => string m.text

/-- How items are set apart. -/
inductive Layout where
  | inline
  | lines (indent : Nat)
  deriving DecidableEq, Repr

/-- What stands between a bracket and an item at a nesting depth. -/
def Layout.edge : Layout → Nat → String
  | inline, _ => ""
  | lines indent, depth => String.ofList ('\n' :: List.replicate (indent * depth) ' ')

/-- What stands between two items at a nesting depth. -/
def Layout.between : Layout → Nat → String
  | inline, _ => ", "
  | lines indent, depth => "," ++ (lines indent).edge depth

mutual

/-- The JSON text of a value at a nesting depth. -/
def write (layout : Layout) (depth : Nat) : Value → String
  | .null => "null"
  | .bool true => "true"
  | .bool false => "false"
  | .int n => Decimal.intText n
  | .float x => number x
  | .text s => string s
  | .moment m => string m.text
  | .list [] => "[]"
  | .list (v :: rest) =>
    "[" ++ layout.edge (depth + 1) ++ write layout (depth + 1) v ++
      writeItems layout (depth + 1) rest ++ layout.edge depth ++ "]"
  | .object [] => "\x7b\x7d"
  | .object ((key, v) :: rest) =>
    "\x7b" ++ layout.edge (depth + 1) ++ keyText key ++ ": " ++ write layout (depth + 1) v ++
      writeFields layout (depth + 1) rest ++ layout.edge depth ++ "\x7d"

/-- The items of a list behind the first one. -/
def writeItems (layout : Layout) (depth : Nat) : List Value → String
  | [] => ""
  | v :: rest => layout.between depth ++ write layout depth v ++ writeItems layout depth rest

/-- The fields of an object behind the first one. -/
def writeFields (layout : Layout) (depth : Nat) : List (Key × Value) → String
  | [] => ""
  | (key, v) :: rest =>
    layout.between depth ++ keyText key ++ ": " ++ write layout depth v ++
      writeFields layout depth rest

end

/-- The JSON text of a value. -/
def render (layout : Layout) (v : Value) : String :=
  write layout 0 v

end ComponentTags.Json
