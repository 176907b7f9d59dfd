import ComponentTags.Json.Writer
import ComponentTags.Problem

/-!
# Output

What a command prints, as text or as JSON. Results go to the standard output and errors to the standard
error stream.
-/

namespace ComponentTags.CommandLine

/-- What is written to the standard output and to the standard error stream. -/
structure Streams where
  out : String := ""
  err : String := ""
  deriving DecidableEq, Repr

namespace Streams

def append (a b : Streams) : Streams :=
  ⟨a.out ++ b.out, a.err ++ b.err⟩

instance : Append Streams := ⟨append⟩

theorem append_eq (a b : Streams) : a ++ b = ⟨a.out ++ b.out, a.err ++ b.err⟩ :=
  rfl

theorem append_assoc (a b c : Streams) : a ++ b ++ c = a ++ (b ++ c) := by
  simp only [append_eq, String.append_assoc]

theorem append_empty (a : Streams) : a ++ ({} : Streams) = a := by
  simp only [append_eq, String.append_empty]

theorem empty_append (a : Streams) : ({} : Streams) ++ a = a := by
  simp only [append_eq, String.empty_append]

end Streams

/-- How results are printed. -/
structure Printer where
  json : Bool
  layout : Json.Layout := .lines 2

namespace Printer

/-- A text on a line of its own. -/
def text (message : String) : Streams :=
  { out := message ++ "\n" }

/-- Data as JSON. -/
def data (p : Printer) (v : Value) : Streams :=
  text (Json.render p.layout v)

/-- A success: its data behind a status as JSON, or else its message. -/
def success (p : Printer) (fields : Assoc String Value) (message status : String) : Streams :=
  if p.json then p.data (.record (Assoc.insertAll [("status", .text status)] fields))
  else text message

/-- An error: the problem's data with a code as JSON, or else the message. -/
def error (p : Printer) (problem : Option Problem) (message code : String) : Streams :=
  if p.json then
    let fields : Assoc String Value :=
      match problem with
      | some problem => problem.payload
      | none => [("code", .text code)]
    let coded := Assoc.insertAll fields [("error", .text code), ("message", .text message)]
    { err := Json.render p.layout (.record coded) ++ "\n" }
  else { err := "Error: " ++ message ++ "\n" }

end Printer

end ComponentTags.CommandLine
