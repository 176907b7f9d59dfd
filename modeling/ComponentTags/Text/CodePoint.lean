import ComponentTags.Text.Hex

/-!
# Characters by number

The characters that escapes name by code points or by surrogates, the halves in which UTF-16 writes a
code point beyond the first plane. A text holds no half of a pair alone: it is read as the replacement character, and
whether it can be written anywhere is left to the services of a run.
-/

namespace ComponentTags.Text

/-- Why a number is no code point. Numbers that need more than 31 bits are a case of their own. -/
inductive CodePointError where
  | outOfRange | tooLarge
  deriving DecidableEq, Repr

def CodePointError.message : CodePointError → String
  | outOfRange => "chr() arg not in range(0x110000)"
  | tooLarge => "Python int too large to convert to C int"

/-- Whether a number is no code point. -/
def codePointError? (n : Nat) : Option CodePointError :=
  if n < 0x110000 then none
  else if n < 0x80000000 then some .outOfRange
  else some .tooLarge

def isHighSurrogate (n : Nat) : Bool :=
  0xD800 ≤ n && n < 0xDC00

def isLowSurrogate (n : Nat) : Bool :=
  0xDC00 ≤ n && n < 0xE000

/-- The character of a pair of surrogates. -/
def ofSurrogates (high low : Nat) : Char :=
  Char.ofNat (0x10000 + (high - 0xD800) * 0x400 + (low - 0xDC00))

/-- The character of a number. -/
def ofCodePoint (n : Nat) : Char :=
  if n.isValidChar then Char.ofNat n else '\ufffd'

/-- The second half of a surrogate pair, if its escape comes next. -/
def lowSurrogate? (s : List Char) : Option (Nat × List Char) :=
  match s with
  | '\\' :: 'u' :: digits => (takeHex? 4 digits).filter fun (n, _) => isLowSurrogate n
  | _ => none

end ComponentTags.Text
