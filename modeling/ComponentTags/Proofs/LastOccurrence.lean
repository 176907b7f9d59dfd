import ComponentTags.Proofs.Occurrence
import Mathlib.Data.List.Basic

/-!
# The last occurrence

A replaced text, read from its end. Replacing occurrences that end in `>` by texts that do not is never
undone: at the last place where the old and the new text differ, the old one has a `>` and the new one has
none, and no later replacement can bring that `>` back.
-/

namespace ComponentTags

/-- The texts, read from their ends, first differ at a place where `s` has a `>` and `t` another character. -/
def EndOverwritten (s t : List Char) : Prop :=
  ∃ u v c rest, s = u ++ '>' :: rest ∧ t = v ++ c :: rest ∧ c ≠ '>'

namespace EndOverwritten

variable {s t u v : List Char}

theorem append_left (u v : List Char) (h : EndOverwritten s t) : EndOverwritten (u ++ s) (v ++ t) := by
  obtain ⟨x, y, c, rest, rfl, rfl, hc⟩ := h
  exact ⟨u ++ x, v ++ y, c, rest, by simp, by simp, hc⟩

theorem not_suffix (h : EndOverwritten s t) : ¬ s <:+ t := by
  obtain ⟨x, y, c, rest, rfl, rfl, hc⟩ := h
  rintro ⟨front, heq⟩
  rw [← List.append_assoc] at heq
  have hsame := List.append_inj_right' heq (by simp)
  exact hc (List.cons.inj hsame).1.symm

theorem trans (first : EndOverwritten s t) (second : EndOverwritten t u) : EndOverwritten s u := by
  obtain ⟨x, y, c, rest, rfl, rfl, hc⟩ := first
  obtain ⟨x', y', c', rest', heq, rfl, hc'⟩ := second
  rcases List.append_eq_append_iff.1 heq with ⟨more, hx, hrest⟩ | ⟨more, hy, hrest⟩
  · match more with
    | [] => exact absurd (List.cons.inj hrest).1 hc
    | d :: more =>
      have hbehind : rest = more ++ '>' :: rest' := (List.cons.inj hrest).2
      exact ⟨x ++ '>' :: more, y', c', rest', by simp [hbehind], rfl, hc'⟩
  · match more with
    | [] => exact absurd (List.cons.inj hrest).1.symm hc
    | d :: more =>
      have hbehind : rest' = more ++ c :: rest := (List.cons.inj hrest).2
      exact ⟨x, y' ++ c' :: more, c, rest, rfl, by simp [hbehind], hc⟩

/-- A text behind another one is overwritten itself, or it is kept as a whole. -/
theorem of_append (h : EndOverwritten (s ++ t) u) :
    EndOverwritten t u ∨ ∃ front, front ≠ [] ∧ u = front ++ t := by
  obtain ⟨x, y, c, rest, heq, rfl, hc⟩ := h
  rcases List.append_eq_append_iff.1 heq with ⟨more, -, ht⟩ | ⟨more, -, hrest⟩
  · exact .inl ⟨more, y, c, rest, ht, rfl, hc⟩
  · match more with
    | [] => exact .inl ⟨[], y, c, rest, hrest.symm, rfl, hc⟩
    | d :: more =>
      have hbehind : rest = more ++ t := (List.cons.inj hrest).2
      exact .inr ⟨y ++ c :: more, by simp, by simp [hbehind]⟩

end EndOverwritten

/-- A text that does not end in `>`, but in another character. -/
def CoversEnd (s : List Char) : Prop := ∃ r c, s = r ++ [c] ∧ c ≠ '>'

theorem CoversEnd.append_left {s : List Char} (u : List Char) (h : CoversEnd s) : CoversEnd (u ++ s) := by
  obtain ⟨r, c, rfl, hc⟩ := h
  exact ⟨u ++ r, c, by rw [List.append_assoc], hc⟩

namespace Pattern

variable {α : Type} {p : Pattern α} {f : α → List Char} {s : List Char}

/-- Every occurrence ends in `>`. -/
def EndsTags (p : Pattern α) : Prop :=
  ∀ s a rest, p.match? s = some (a, rest) → '>' :: rest <:+ s

/-- Up to the first occurrence a text is copied. -/
theorem exists_first (f : α → List Char) (h : p.count s ≠ 0) :
    ∃ u t a rest, s = u ++ t ∧ p.match? t = some (a, rest) ∧
      p.replace f s = u ++ (f a ++ p.replace f rest) := by
  induction s using reading_induction p with
  | nil => exact absurd (count_nil p) h
  | found s a rest hmatch _ => exact ⟨[], s, a, rest, rfl, hmatch, replace_of_match hmatch⟩
  | skip c s hnone ih =>
    rw [count_cons_of_none hnone] at h
    obtain ⟨u, t, a, rest, rfl, hmatch, hreplace⟩ := ih h
    exact ⟨c :: u, t, a, rest, rfl, hmatch, by rw [replace_cons_of_none hnone, hreplace]; rfl⟩

/-- Behind the last occurrence a text is copied. -/
theorem exists_last (ends : p.EndsTags) (f : α → List Char) (h : p.count s ≠ 0) :
    ∃ t a rest front, t <:+ s ∧ p.match? t = some (a, rest) ∧
      p.replace f s = front ++ (f a ++ rest) := by
  induction s using reading_induction p with
  | nil => exact absurd (count_nil p) h
  | found s a rest hmatch ih =>
    by_cases hrest : p.count rest = 0
    · have hkept := replace_of_absent (f := f) (count_eq_zero_iff.1 hrest)
      exact ⟨s, a, rest, [], List.suffix_rfl, hmatch, by rw [replace_of_match hmatch, hkept]; rfl⟩
    · obtain ⟨t, b, rest', front, hsuffix, hlater, hreplace⟩ := ih hrest
      have hbehind : rest <:+ s := (List.suffix_cons '>' rest).trans (ends s a rest hmatch)
      exact ⟨t, b, rest', f a ++ front, hsuffix.trans hbehind, hlater,
        by rw [replace_of_match hmatch, hreplace, List.append_assoc]⟩
  | skip c s hnone ih =>
    rw [count_cons_of_none hnone] at h
    obtain ⟨t, a, rest, front, hsuffix, hmatch, hreplace⟩ := ih h
    exact ⟨t, a, rest, c :: front, hsuffix.trans (List.suffix_cons c s), hmatch,
      by rw [replace_cons_of_none hnone, hreplace]; rfl⟩

section

variable (ends : p.EndsTags) (covers : ∀ a, CoversEnd (f a))

include ends covers

/-- Replacing changes nothing, or it overwrites the `>` of the last occurrence. -/
theorem replace_eq_or_endOverwritten (s : List Char) :
    p.replace f s = s ∨ EndOverwritten s (p.replace f s) := by
  by_cases h : p.count s = 0
  · exact .inl (replace_of_absent (count_eq_zero_iff.1 h))
  · obtain ⟨t, a, rest, front, ⟨u, rfl⟩, hmatch, hreplace⟩ := exists_last ends f h
    obtain ⟨m, rfl⟩ := ends t a rest hmatch
    obtain ⟨r, c, hf, hc⟩ := covers a
    exact .inr ⟨u ++ m, front ++ r, c, rest, by simp, by simp [hreplace, hf], hc⟩

/-- A text that ends in `>` does so when it is replaced, or it ends with a replacement. -/
theorem getLast?_replace (s : List Char) :
    (p.replace f (s ++ ['>'])).getLast? = some '>' ∨
      ∃ a, (p.replace f (s ++ ['>'])).getLast? = (f a).getLast? := by
  by_cases h : p.count (s ++ ['>']) = 0
  · rw [replace_of_absent (count_eq_zero_iff.1 h)]
    exact .inl List.getLast?_concat
  · obtain ⟨t, a, rest, front, hsuffix, hmatch, hreplace⟩ := exists_last ends f h
    obtain ⟨m, rfl⟩ := ends t a rest hmatch
    obtain ⟨r, c, hf, -⟩ := covers a
    rw [hreplace]
    by_cases hrest : rest = []
    · exact .inr ⟨a, by simp [hrest, hf]⟩
    · obtain ⟨u, hu⟩ := hsuffix
      have hshape : u ++ (m ++ ['>']) ++ rest = s ++ ['>'] := by rw [← hu]; simp
      have hlast := List.getLast?_append_of_ne_nil (u ++ (m ++ ['>'])) hrest
      rw [hshape, List.getLast?_concat] at hlast
      exact .inl (by rw [← List.append_assoc, List.getLast?_append_of_ne_nil _ hrest, hlast])

end

end Pattern

end ComponentTags
