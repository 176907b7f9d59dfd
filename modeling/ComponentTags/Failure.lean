import ComponentTags.ContextStack
import ComponentTags.Decimal.Limit
import ComponentTags.Settings.Error
import ComponentTags.Stage
import ComponentTags.Text.CodePoint

/-!
# Failures

Everything that can stop an operation of the library: the problems that its parts report, escapes,
numerals and dates that stand for nothing, settings of a wrong shape, bytes that are no text, files that the system
does not give access to, and whatever else stands in the way.
-/

namespace ComponentTags

inductive Failure where
  | pattern (e : PatternError)
  | registration (e : RegistrationError)
  | settings (e : Settings.Error)
  | shape (e : Settings.ShapeError)
  | stack (e : ContextStack.Error)
  | codePoint (e : Text.CodePointError)
  | numeral (e : Decimal.NumeralError)
  | moment (e : Moment.Error)
  | encoding (e : Text.Utf8Error)
  | access (e : AccessError)
  | obstacle (e : Obstacle)

namespace Failure

def message : Failure → String
  | pattern e => e.message
  | registration e => e.message
  | settings e => e.message
  | shape e => e.message
  | stack e => e.message
  | codePoint e => e.message
  | numeral e => e.message
  | moment e => e.message
  | encoding e => e.message
  | access e => e.message
  | obstacle e => e.message

/-- The failure as a problem of the library, if it is one. -/
def problem? : Failure → Option Problem
  | pattern e => e.problem?
  | registration e => some e.problem
  | settings e => some e.problem
  | stack e => some e.problem
  | shape _ | codePoint _ | numeral _ | moment _ | encoding _ | access _ | obstacle _ => none

/-- What the system says, if it refuses an access. -/
def refusal? : Failure → Option String
  | access e => some e.message
  | obstacle (.system message) => some message
  | pattern _ | registration _ | settings _ | shape _ | stack _ | codePoint _ | numeral _ | moment _
  | encoding _ | obstacle (.foreign ..) => none

/-- A failure that something ended with, if it did, as a result. -/
def raised : Option Failure → Except Failure Unit
  | some e => .error e
  | none => .ok ()

/-- Only a failure takes another form. -/
theorem eq_ok_of_mapError {ε δ α : Type} {x : Except ε α} {f : ε → δ} {a : α}
    (h : x.mapError f = .ok a) : x = .ok a := by
  cases x with
  | error e => cases h
  | ok b => exact congrArg Except.ok (Except.ok.inj h)

end Failure

end ComponentTags
