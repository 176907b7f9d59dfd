import ComponentTags.Decimal.Number

/-!
# Numerals that are refused

Whole numbers are read from text only up to a fixed number of digits, and only if there are digits. The
places of a double in base sixty must not weigh more than a double can.
-/

namespace ComponentTags.Decimal

/-- The most digits that a numeral may have. -/
def maxDigits : Nat := 4300

/-- Why a numeral stands for no number: it has too many digits, or none in its base, or a place of it
weighs too much. -/
inductive NumeralError where
  | tooLong (digits : Nat)
  | noDigits (base : Nat)
  | tooHeavy
  deriving DecidableEq, Repr

def NumeralError.message : NumeralError → String
  | tooLong digits =>
    "Exceeds the limit (4300 digits) for integer string conversion: value has " ++
      natText digits ++ " digits; use sys.set_int_max_str_digits() to increase the limit"
  | noDigits base => "invalid literal for int() with base " ++ natText base ++ ": ''"
  | tooHeavy => "int too large to convert to float"

end ComponentTags.Decimal
