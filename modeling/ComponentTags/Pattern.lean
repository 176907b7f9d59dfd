/-!
# Patterns in a text

A pattern says whether an occurrence starts at the head of a text, what it stands for and which text
follows it. Reading a text from left to right splits it into pieces: occurrences, which never
overlap, and single characters between them. Replacing, counting and locating occurrences are
functions on the pieces.
-/

namespace ComponentTags

/-- Recognises an occurrence at the head of a text. An occurrence is never empty. -/
structure Pattern (α : Type) where
  match? : List Char → Option (α × List Char)
  length_lt : ∀ {s : List Char} {a : α} {rest : List Char},
    match? s = some (a, rest) → rest.length < s.length

/-- A piece of a text: a character, or an occurrence with its text. -/
inductive Piece (α : Type) where
  | char (c : Char)
  | occurrence (source : List Char) (value : α)

namespace Piece

variable {α : Type}

/-- The text of a piece. -/
def source : Piece α → List Char
  | char c => [c]
  | occurrence source _ => source

def isOccurrence : Piece α → Bool
  | char _ => false
  | occurrence .. => true

/-- The text that replaces a piece. -/
def replaceWith (f : α → List Char) : Piece α → List Char
  | char c => [c]
  | occurrence _ value => f value

end Piece

namespace Pattern

variable {α : Type}

/-- The pieces of a text: the leftmost occurrence is taken first, then the leftmost one behind it. -/
def pieces (p : Pattern α) (s : List Char) : List (Piece α) :=
  match _found : p.match? s with
  | some (a, rest) => .occurrence (s.take (s.length - rest.length)) a :: p.pieces rest
  | none =>
    match s with
    | [] => []
    | c :: s => .char c :: p.pieces s
termination_by s.length
decreasing_by
  · exact p.length_lt _found
  · exact Nat.lt_succ_self _

/-- The text with every occurrence replaced. -/
def replace (p : Pattern α) (f : α → List Char) (s : List Char) : List Char :=
  (p.pieces s).flatMap (·.replaceWith f)

/-- The number of occurrences. -/
def count (p : Pattern α) (s : List Char) : Nat :=
  (p.pieces s).countP (·.isOccurrence)

/-- The occurrences in pieces of which the first starts at `start`, each with its start and its end. -/
def spansFrom (start : Nat) : List (Piece α) → List (Nat × Nat × α)
  | [] => []
  | .char _ :: rest => spansFrom (start + 1) rest
  | .occurrence source value :: rest =>
    (start, start + source.length, value) :: spansFrom (start + source.length) rest

/-- The occurrences in a text, each with its start and its end. -/
def spans (p : Pattern α) (s : List Char) : List (Nat × Nat × α) :=
  spansFrom 0 (p.pieces s)

end Pattern

end ComponentTags
