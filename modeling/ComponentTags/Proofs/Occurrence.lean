import ComponentTags.Pattern

/-!
# Occurrences of a pattern

How replacing reads a text: a text in front of which no occurrence starts is copied, and behind an
occurrence the reading goes on with what follows it. Replacing occurrences that start with `<` by texts
that do not is never undone: at the first place where the old and the new text differ, the old one has
a `<` and the new one has none, and no later replacement can bring that `<` back.
-/

namespace ComponentTags

/-- No part of `s` makes the reader `m?` accept when the text `rest` follows. -/
def Skips {β : Type} (m? : List Char → Option β) (s rest : List Char) : Prop :=
  ∀ t, t ≠ [] → t <:+ s → m? (t ++ rest) = none

namespace Skips

variable {β : Type} {m? : List Char → Option β} {s u v rest : List Char}

@[simp]
theorem nil : Skips m? [] rest := by
  intro t ht hsuffix
  exact absurd (List.suffix_nil.1 hsuffix) ht

theorem cons_iff {c : Char} :
    Skips m? (c :: s) rest ↔ m? (c :: s ++ rest) = none ∧ Skips m? s rest := by
  constructor
  · intro h
    exact ⟨h _ (by simp) List.suffix_rfl, fun t ht hsuffix =>
      h t ht (hsuffix.trans (List.suffix_cons c s))⟩
  · rintro ⟨hhead, htail⟩ t ht hsuffix
    rcases List.suffix_cons_iff.1 hsuffix with rfl | hsuffix
    · exact hhead
    · exact htail t ht hsuffix

theorem append_iff : Skips m? (u ++ v) rest ↔ Skips m? u (v ++ rest) ∧ Skips m? v rest := by
  induction u with
  | nil => simp
  | cons c u ih =>
    rw [List.cons_append, cons_iff, cons_iff, ih, List.cons_append, List.cons_append,
      List.append_assoc, and_assoc]

/-- A reader that accepts nothing but texts with `<` in front skips a text without `<`. -/
theorem of_not_mem (opens : ∀ c s, c ≠ '<' → m? (c :: s) = none) (h : '<' ∉ s) :
    Skips m? s rest := by
  induction s with
  | nil => exact nil
  | cons c s ih =>
    rw [List.mem_cons, not_or] at h
    exact cons_iff.2 ⟨opens c _ (Ne.symm h.1), ih h.2⟩

end Skips

namespace Pattern

variable {α : Type} {p : Pattern α} {f : α → List Char} {s u rest : List Char} {a : α}

/-- Every occurrence starts with `<`, and what is read after it is what follows it. -/
structure ReadsTags (p : Pattern α) : Prop where
  opens : ∀ c s, c ≠ '<' → p.match? (c :: s) = none
  follows : ∀ s a rest, p.match? s = some (a, rest) → rest <:+ s

/-- No occurrence starts anywhere in the text. -/
def Absent (p : Pattern α) (s : List Char) : Prop := Skips p.match? s []

theorem match?_nil (p : Pattern α) : p.match? [] = none := by
  cases h : p.match? [] with
  | none => rfl
  | some found =>
    obtain ⟨a, rest⟩ := found
    exact absurd (p.length_lt h) (by simp)

/-- What is accepted at a place starts with `<`. -/
theorem ReadsTags.eq_cons (tags : p.ReadsTags) (h : p.match? s = some (a, rest)) :
    ∃ r, s = '<' :: r := by
  cases s with
  | nil => rw [match?_nil] at h; cases h
  | cons c r =>
    by_cases hc : c = '<'
    · exact ⟨r, by rw [hc]⟩
    · rw [tags.opens c r hc] at h
      cases h

theorem pieces_of_match (h : p.match? s = some (a, rest)) :
    p.pieces s = .occurrence (s.take (s.length - rest.length)) a :: p.pieces rest := by
  rw [pieces]
  split
  · rename_i found
    rw [h] at found
    cases found
    rfl
  · rename_i hnone
    rw [h] at hnone
    cases hnone

theorem pieces_append_of_match (h : p.match? (u ++ rest) = some (a, rest)) :
    p.pieces (u ++ rest) = .occurrence u a :: p.pieces rest := by
  rw [pieces_of_match h]
  simp

theorem pieces_cons_of_none {c : Char} (h : p.match? (c :: s) = none) :
    p.pieces (c :: s) = .char c :: p.pieces s := by
  rw [pieces]
  split
  · rename_i found
    rw [h] at found
    cases found
  · rfl

@[simp]
theorem pieces_nil (p : Pattern α) : p.pieces [] = [] := by
  rw [pieces]
  split
  · rename_i found
    rw [p.match?_nil] at found
    cases found
  · rfl

/-- Reading a text from left to right: at each place an occurrence is passed over as a whole, or one
character where none starts. -/
@[elab_as_elim]
theorem reading_induction (p : Pattern α) {motive : List Char → Prop} (s : List Char)
    (nil : motive [])
    (found : ∀ s a rest, p.match? s = some (a, rest) → motive rest → motive s)
    (skip : ∀ c s, p.match? (c :: s) = none → motive s → motive (c :: s)) : motive s := by
  fun_induction pieces p s with
  | case1 s a rest h ih => exact found s a rest h ih
  | case2 => exact nil
  | case3 c s h ih => exact skip c s h ih

/-- The pieces of a text are its parts, in order. -/
theorem flatMap_source_pieces (tags : p.ReadsTags) (s : List Char) :
    (p.pieces s).flatMap (·.source) = s := by
  induction s using reading_induction p with
  | nil => simp
  | found s a rest h ih =>
    obtain ⟨before, rfl⟩ := tags.follows s a rest h
    rw [pieces_of_match h, List.flatMap_cons, ih]
    simp [Piece.source]
  | skip c s h ih =>
    rw [pieces_cons_of_none h, List.flatMap_cons, ih]
    rfl

/-- From any place that the reading comes to, it goes on as at a start. -/
theorem eq_pieces_of_append (tags : p.ReadsTags) {before behind : List (Piece α)}
    (h : p.pieces s = before ++ behind) : behind = p.pieces (behind.flatMap (·.source)) := by
  induction s using reading_induction p generalizing before with
  | nil =>
    rw [pieces_nil] at h
    rw [(List.append_eq_nil_iff.1 h.symm).2]
    simp
  | found s a rest hmatch ih =>
    cases before with
    | nil =>
      have hbehind : p.pieces s = behind := h
      rw [← hbehind, flatMap_source_pieces tags]
    | cons piece before =>
      rw [pieces_of_match hmatch] at h
      exact ih (List.cons.inj h).2
  | skip c s hnone ih =>
    cases before with
    | nil =>
      have hbehind : p.pieces (c :: s) = behind := h
      rw [← hbehind, flatMap_source_pieces tags]
    | cons piece before =>
      rw [pieces_cons_of_none hnone] at h
      exact ih (List.cons.inj h).2

/-- Where an occurrence is the next piece, it is accepted there. -/
theorem match?_of_pieces_eq_cons {source : List Char} {behind : List (Piece α)} (tags : p.ReadsTags)
    (h : p.pieces s = .occurrence source a :: behind) :
    ∃ rest, p.match? s = some (a, rest) ∧ s = source ++ rest ∧ behind = p.pieces rest := by
  cases hmatch : p.match? s with
  | some found =>
    obtain ⟨b, rest⟩ := found
    obtain ⟨before, rfl⟩ := tags.follows s b rest hmatch
    rw [pieces_of_match hmatch] at h
    cases h
    exact ⟨rest, rfl, by simp, rfl⟩
  | none =>
    cases s with
    | nil => simp at h
    | cons c s =>
      rw [pieces_cons_of_none hmatch] at h
      cases h

/-- An occurrence is the next piece exactly where one is accepted. -/
theorem exists_occurrence_iff (tags : p.ReadsTags) :
    (∃ source a behind, p.pieces s = .occurrence source a :: behind) ↔ ∃ found, p.match? s = some found := by
  constructor
  · rintro ⟨source, a, behind, h⟩
    obtain ⟨rest, hmatch, -, -⟩ := match?_of_pieces_eq_cons tags h
    exact ⟨_, hmatch⟩
  · rintro ⟨⟨a, rest⟩, h⟩
    exact ⟨_, a, _, pieces_of_match h⟩

@[simp]
theorem replace_nil (p : Pattern α) (f : α → List Char) : p.replace f [] = [] := by
  simp [replace]

theorem replace_of_match (h : p.match? s = some (a, rest)) :
    p.replace f s = f a ++ p.replace f rest := by
  simp [replace, pieces_of_match h, Piece.replaceWith]

theorem replace_cons_of_none {c : Char} (h : p.match? (c :: s) = none) :
    p.replace f (c :: s) = c :: p.replace f s := by
  simp [replace, pieces_cons_of_none h, Piece.replaceWith]

@[simp]
theorem count_nil (p : Pattern α) : p.count [] = 0 := by
  simp [count]

theorem count_of_match (h : p.match? s = some (a, rest)) : p.count s = p.count rest + 1 := by
  simp [count, pieces_of_match h, Piece.isOccurrence]

theorem count_cons_of_none {c : Char} (h : p.match? (c :: s) = none) :
    p.count (c :: s) = p.count s := by
  simp [count, pieces_cons_of_none h, Piece.isOccurrence]

/-- A text in which no occurrence starts is copied. -/
theorem replace_append (h : Skips p.match? u s) : p.replace f (u ++ s) = u ++ p.replace f s := by
  induction u with
  | nil => rfl
  | cons c u ih =>
    obtain ⟨hhead, htail⟩ := Skips.cons_iff.1 h
    have hnone : p.match? (c :: (u ++ s)) = none := hhead
    rw [List.cons_append, replace_cons_of_none hnone, ih htail, List.cons_append]

theorem count_append (h : Skips p.match? u s) : p.count (u ++ s) = p.count s := by
  induction u with
  | nil => rfl
  | cons c u ih =>
    obtain ⟨hhead, htail⟩ := Skips.cons_iff.1 h
    have hnone : p.match? (c :: (u ++ s)) = none := hhead
    rw [List.cons_append, count_cons_of_none hnone, ih htail]

theorem replace_append_of_not_mem (tags : p.ReadsTags) (h : '<' ∉ u) :
    p.replace f (u ++ s) = u ++ p.replace f s :=
  replace_append (Skips.of_not_mem tags.opens h)

theorem replace_of_absent (h : p.Absent s) : p.replace f s = s := by
  have copied := replace_append (f := f) h
  simpa using copied

theorem count_eq_zero_iff : p.count s = 0 ↔ p.Absent s := by
  induction s using reading_induction p with
  | nil => simp [Absent]
  | found s a rest h ih =>
    rw [count_of_match h]
    constructor
    · intro hzero
      omega
    · intro habsent
      cases s with
      | nil => rw [match?_nil] at h; cases h
      | cons c s =>
        have hnone := (Skips.cons_iff.1 habsent).1
        rw [List.append_nil, h] at hnone
        cases hnone
  | skip c s h ih =>
    rw [count_cons_of_none h, ih, Absent, Absent, Skips.cons_iff, List.append_nil]
    exact ⟨fun habsent => ⟨h, habsent⟩, fun habsent => habsent.2⟩

/-- Where occurrences neither reach into a text behind nor end otherwise because of it, the two texts are
read one after the other. -/
theorem replace_append_of_match {v : List Char} (tags : p.ReadsTags) {s : List Char}
    (apart : ∀ t, t ≠ [] → t <:+ s →
      p.match? (t ++ v) = (p.match? t).map fun found => (found.1, found.2 ++ v)) :
    p.replace f (s ++ v) = p.replace f s ++ p.replace f v ∧ p.count (s ++ v) = p.count s + p.count v := by
  induction s using reading_induction p with
  | nil => simp
  | found s a rest h ih =>
    obtain ⟨r, hs⟩ := tags.eq_cons h
    have happart := apart s (by simp [hs]) List.suffix_rfl
    rw [h] at happart
    have hrest := ih fun t ht hsuffix => apart t ht (hsuffix.trans (tags.follows s a rest h))
    rw [replace_of_match happart, replace_of_match h, count_of_match happart, count_of_match h,
      hrest.1, hrest.2, List.append_assoc]
    exact ⟨rfl, by omega⟩
  | skip c s h ih =>
    have hnone : p.match? (c :: (s ++ v)) = none := by
      have happart := apart (c :: s) (by simp) List.suffix_rfl
      rwa [h] at happart
    have ih := ih fun t ht hsuffix => apart t ht (hsuffix.trans (List.suffix_cons c s))
    rw [List.cons_append, replace_cons_of_none hnone, replace_cons_of_none h,
      count_cons_of_none hnone, count_cons_of_none h, ih.1, ih.2]
    exact ⟨rfl, rfl⟩

/-- A character of a replaced text was there before or comes with a replacement. -/
theorem mem_replace (tags : p.ReadsTags) {x : Char} (h : x ∈ p.replace f s) :
    x ∈ s ∨ ∃ t a rest, t <:+ s ∧ p.match? t = some (a, rest) ∧ x ∈ f a := by
  induction s using reading_induction p with
  | nil => simp at h
  | found s a rest hmatch ih =>
    have hsuffix : rest <:+ s := tags.follows s a rest hmatch
    rw [replace_of_match hmatch] at h
    rcases List.mem_append.1 h with h | h
    · exact .inr ⟨s, a, rest, List.suffix_rfl, hmatch, h⟩
    · rcases ih h with h | ⟨t, a', rest', ht, hmatch', h⟩
      · exact .inl (hsuffix.subset h)
      · exact .inr ⟨t, a', rest', ht.trans hsuffix, hmatch', h⟩
  | skip c s hnone ih =>
    rw [replace_cons_of_none hnone] at h
    rcases List.mem_cons.1 h with rfl | h
    · exact .inl List.mem_cons_self
    · rcases ih h with h | ⟨t, a, rest, ht, hmatch, h⟩
      · exact .inl (List.mem_cons_of_mem _ h)
      · exact .inr ⟨t, a, rest, ht.trans (List.suffix_cons c s), hmatch, h⟩

theorem absent_of_not_mem (tags : p.ReadsTags) (h : '<' ∉ s) : p.Absent s :=
  Skips.of_not_mem tags.opens h

end Pattern

/-- The texts first differ at a place where `s` has a `<` and `t` another character. -/
inductive Overwritten : List Char → List Char → Prop where
  | here {c : Char} (s t : List Char) (other : c ≠ '<') : Overwritten ('<' :: s) (c :: t)
  | behind (c : Char) {s t : List Char} (later : Overwritten s t) : Overwritten (c :: s) (c :: t)

namespace Overwritten

variable {s t u : List Char}

theorem trans (first : Overwritten s t) (second : Overwritten t u) : Overwritten s u := by
  induction first generalizing u with
  | here s t other =>
    cases second with
    | here _ _ _ => exact absurd rfl other
    | behind _ _ => exact .here _ _ other
  | behind c later ih =>
    cases second with
    | here _ _ other => exact .here _ _ other
    | behind _ later' => exact .behind c (ih later')

theorem ne (h : Overwritten s t) : s ≠ t := by
  induction h with
  | here s t other =>
    intro heq
    exact other (List.cons.inj heq).1.symm
  | behind c later ih =>
    intro heq
    exact ih (List.cons.inj heq).2

theorem append_left (v : List Char) (h : Overwritten s t) : Overwritten (v ++ s) (v ++ t) := by
  induction v with
  | nil => exact h
  | cons c v ih => exact .behind c ih

theorem append_right (h : Overwritten s t) (v w : List Char) : Overwritten (s ++ v) (t ++ w) := by
  induction h with
  | here s t other => exact .here _ _ other
  | behind c later ih => exact .behind c ih

end Overwritten

/-- A text that does not start with `<`, but with another character. -/
def CoversTag (s : List Char) : Prop := ∃ c r, s = c :: r ∧ c ≠ '<'

/-- Replacing finds nothing and changes nothing, or it overwrites the `<` of the first occurrence. -/
theorem Pattern.replace_eq_or_overwritten {α : Type} {p : Pattern α} {f : α → List Char}
    (tags : p.ReadsTags) (covers : ∀ a, CoversTag (f a)) (s : List Char) :
    (p.count s = 0 ∧ p.replace f s = s) ∨ (p.count s ≠ 0 ∧ Overwritten s (p.replace f s)) := by
  induction s using reading_induction p with
  | nil => simp
  | found s a rest h ih =>
    obtain ⟨r, rfl⟩ := tags.eq_cons h
    obtain ⟨c, t, hf, hc⟩ := covers a
    rw [replace_of_match h, count_of_match h, hf]
    exact .inr ⟨by omega, .here _ _ hc⟩
  | skip c s h ih =>
    rw [replace_cons_of_none h, count_cons_of_none h]
    rcases ih with ⟨hzero, hsame⟩ | ⟨hsome, hover⟩
    · exact .inl ⟨hzero, by rw [hsame]⟩
    · exact .inr ⟨hsome, .behind c hover⟩

end ComponentTags
