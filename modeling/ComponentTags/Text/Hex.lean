/-!
# Hexadecimal digits

Fixed-width hexadecimal text of escapes, written with small letters and read in either case.
-/

namespace ComponentTags.Text

/-- The value of a hexadecimal digit. -/
def hexValue? (c : Char) : Option Nat :=
  if '0' ≤ c && c ≤ '9' then some (c.toNat - '0'.toNat)
  else if 'a' ≤ c && c ≤ 'f' then some (c.toNat - 'a'.toNat + 10)
  else if 'A' ≤ c && c ≤ 'F' then some (c.toNat - 'A'.toNat + 10)
  else none

/-- The last `width` hexadecimal digits of a number. -/
def hexDigits : Nat → Nat → List Char
  | 0, _ => []
  | width + 1, n => hexDigits width (n / 16) ++ [Nat.digitChar (n % 16)]

/-- Reads exactly `width` hexadecimal digits; gives their number and the text behind them. -/
def takeHex? : Nat → List Char → Option (Nat × List Char)
  | width, s => go width 0 s
where
  go : Nat → Nat → List Char → Option (Nat × List Char)
    | 0, n, s => some (n, s)
    | _ + 1, _, [] => none
    | width + 1, n, c :: s =>
      match hexValue? c with
      | some d => go width (n * 16 + d) s
      | none => none

end ComponentTags.Text
