/-!
# Ranges of code points

Character classes beyond ASCII are data of the Unicode standard, version 14. Each is a list of closed
ranges, ascending and apart, and one lookup reads them all. The ASCII part of a class is written out
beside its table, so that questions about ASCII text never open a table.
-/

namespace ComponentTags.Text

/-- Closed ranges of code points, ascending and apart. -/
abbrev Ranges := List (Nat × Nat)

/-- Whether a code point lies in one of the ranges. -/
def Ranges.contains (ranges : Ranges) (n : Nat) : Bool :=
  ranges.any fun r => r.1 ≤ n && n ≤ r.2

end ComponentTags.Text
