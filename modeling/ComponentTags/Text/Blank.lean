import ComponentTags.Text.Ranges

/-!
# Blank characters

White space: the characters that separate attributes and words. Besides the Unicode property it
holds the four information separators U+001C to U+001F. The zero width space U+200B and the byte
order mark U+FEFF are not blank.
-/

namespace ComponentTags.Text

/-- The blank code points. -/
def blankRanges : Ranges :=
  [(9, 13), (28, 32), (133, 133), (160, 160), (5760, 5760), (8192, 8202), (8232, 8233),
   (8239, 8239), (8287, 8287), (12288, 12288)]

/-- Whether a character is white space. -/
def isBlank (c : Char) : Bool :=
  blankRanges.contains c.toNat

/-- Whether a character is white space within a line. -/
def isInlineBlank (c : Char) : Bool :=
  isBlank c && c != '\n'

/-- Drops the white space at both ends. -/
def strip (s : List Char) : List Char :=
  ((s.dropWhile isBlank).reverse.dropWhile isBlank).reverse

/-- Blanks are dropped up to a character that is not blank. -/
theorem dropWhile_isBlank_append {s : List Char} (hne : s ≠ []) (hfirst : ∀ c ∈ s.head?, isBlank c = false)
    (p : List Char) : (p ++ s).dropWhile isBlank = p.dropWhile isBlank ++ s := by
  cases s with
  | nil => exact absurd rfl hne
  | cons c s =>
    rw [List.dropWhile_append, List.dropWhile_cons_of_neg (by simp [hfirst c rfl])]
    split
    · rename_i hempty
      rw [List.isEmpty_iff.1 hempty, List.nil_append]
    · rfl

/-- A part that neither starts nor ends with a blank stays, with what stands in front of it but for the blanks at
the start. -/
theorem strip_append {s last : List Char} (hne : s ≠ []) (hfirst : ∀ c ∈ s.head?, isBlank c = false)
    (hlast : ∀ c ∈ s.getLast?, isBlank c = false) (blank : ∀ c ∈ last, isBlank c = true) (p : List Char) :
    strip (p ++ (s ++ last)) = p.dropWhile isBlank ++ s := by
  have hstart : ∀ c ∈ (s ++ last).head?, isBlank c = false := by
    rwa [List.head?_append, Option.or_of_isSome (List.isSome_head?.2 hne)]
  have hend : ∀ c ∈ (s.reverse ++ (p.dropWhile isBlank).reverse).head?, isBlank c = false := by
    rwa [List.head?_append, List.head?_reverse, Option.or_of_isSome (List.getLast?_isSome.2 hne)]
  have hback : ∀ c ∈ last.reverse, isBlank c = true := fun c hc => blank c (List.mem_reverse.1 hc)
  have hkept := dropWhile_isBlank_append (by simp [hne]) hend []
  rw [List.nil_append, List.dropWhile_nil, List.nil_append] at hkept
  rw [strip, dropWhile_isBlank_append (by simp [hne]) hstart, List.reverse_append, List.reverse_append,
    List.append_assoc, List.dropWhile_append_of_pos hback, hkept, ← List.reverse_append, List.reverse_reverse]

end ComponentTags.Text
