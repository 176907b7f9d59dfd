/-!
# Line ends

Text files are read with every line end as a line feed.
-/

namespace ComponentTags.Text

/-- Replaces each carriage return, with a line feed that follows it, by a line feed. -/
def unifyLineEnds : List Char → List Char
  | [] => []
  | '\r' :: '\n' :: s => '\n' :: unifyLineEnds s
  | '\r' :: s => '\n' :: unifyLineEnds s
  | c :: s => c :: unifyLineEnds s

end ComponentTags.Text
