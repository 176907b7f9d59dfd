import ComponentTags.Calendar
import ComponentTags.Decimal.Limit
import ComponentTags.Text.CodePoint

/-!
# Faults of documents

Why a document cannot be read: it is no document of the supported kind, an escape in it names no
character, or a scalar is spelled like a number or a moment, but stands for none.
-/

namespace ComponentTags.Yaml

inductive Fault where
  | malformed
  | codePoint (e : Text.CodePointError)
  | numeral (e : Decimal.NumeralError)
  | moment (e : Moment.Error)
  deriving DecidableEq, Repr

/-- A result that is missing where a document is malformed. -/
def orMalformed {α : Type} : Option α → Except Fault α
  | some a => .ok a
  | none => .error .malformed

end ComponentTags.Yaml
