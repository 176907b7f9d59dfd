import ComponentTags.Proofs.TagReading

/-!
# Slots in front of a quote

A double quote is no part of a slot's tags. So in front of one that no tag follows, slots are found as if
the text ended there: neither their opening nor their closing tags reach across it.
-/

namespace ComponentTags

namespace Text

variable {blank : Char → Bool} {c : Char} {literal s w : List Char}

/-- A literal without the character that follows is found in front of that character or not at all. -/
theorem afterLiteral_append (hc : c ∉ literal) :
    afterLiteral literal (s ++ c :: w) = (afterLiteral literal s).map (· ++ c :: w) := by
  induction literal generalizing s with
  | nil => rfl
  | cons d literal ih =>
    rw [List.mem_cons, not_or] at hc
    cases s with
    | nil => simp [afterLiteral, Ne.symm hc.1]
    | cons e s =>
      rw [List.cons_append, afterLiteral, afterLiteral]
      split
      · exact ih hc.2
      · rfl

theorem dropWhile_append_cons (hc : blank c = false) :
    (s ++ c :: w).dropWhile blank = s.dropWhile blank ++ c :: w := by
  induction s with
  | nil => rw [List.nil_append, List.dropWhile_cons_of_neg (by simp [hc]), List.dropWhile_nil,
      List.nil_append]
  | cons d s ih =>
    rw [List.cons_append]
    by_cases hd : blank d = true
    · rw [List.dropWhile_cons_of_pos hd, List.dropWhile_cons_of_pos hd, ih]
    · rw [List.dropWhile_cons_of_neg hd, List.dropWhile_cons_of_neg hd, List.cons_append]

end Text

namespace Markup

open Text (isBlank)

variable {blank : Char → Bool} {c : Char} {name s w : List Char}

theorem afterName_append (hblank : blank c = false) (hname : name ≠ []) (hc : c ∉ name) :
    afterName blank name (s ++ c :: w) = (afterName blank name s).map (· ++ c :: w) := by
  have nothing : Text.afterLiteral name [] = none := by
    cases name with
    | nil => exact absurd rfl hname
    | cons d name => rfl
  induction s with
  | nil =>
    have found := Text.afterLiteral_append (s := []) (w := w) hc
    rw [List.nil_append, nothing] at found
    simpa [afterName, hblank, nothing] using found
  | cons d s ih =>
    have found := Text.afterLiteral_append (s := d :: s) (w := w) hc
    rw [List.cons_append] at found ⊢
    rw [afterName, afterName, ih, found]
    split
    · cases afterName blank name s <;> rfl
    · rfl

theorem slotEnd?_append (s w : List Char) :
    slotEnd? (s ++ '"' :: w) = (slotEnd? s).map (· ++ '"' :: w) := by
  cases s with
  | nil => exact slotEnd?_cons_of_ne (by decide) w
  | cons c s =>
    by_cases hc : c = '<'
    · subst hc
      simp only [slotEnd?, List.cons_append]
      rw [Text.dropWhile_append_cons (by decide)]
      cases s.dropWhile isBlank with
      | nil => rfl
      | cons d s =>
        by_cases hd : d = '/'
        · subst hd
          simp only [List.cons_append]
          rw [Text.dropWhile_append_cons (by decide), Text.afterLiteral_append (by decide)]
          cases Text.afterLiteral "slot".toList (s.dropWhile isBlank) with
          | none => rfl
          | some s =>
            simp only [Option.map_some]
            rw [Text.dropWhile_append_cons (by decide)]
            cases s.dropWhile isBlank with
            | nil => rfl
            | cons e s =>
              by_cases he : e = '>'
              · subst he
                rfl
              · simp [he]
        · simp [hd]
    · rw [List.cons_append, slotEnd?_cons_of_ne hc, slotEnd?_cons_of_ne hc]
      rfl

theorem slotContents?_of_not_mem (h : '<' ∉ s) : slotContents? s = none := by
  induction s with
  | nil => rfl
  | cons c s ih =>
    rw [List.mem_cons, not_or] at h
    unfold slotContents?
    rw [slotEnd?_cons_of_ne (Ne.symm h.1)]
    simp [ih h.2]

theorem slotContents?_append (hw : '<' ∉ w) :
    slotContents? (s ++ '"' :: w) =
      (slotContents? s).map fun found => (found.1, found.2 ++ '"' :: w) := by
  induction s with
  | nil =>
    rw [List.nil_append, slotContents?_of_not_mem (by simp [hw]), slotContents?_of_not_mem (by simp)]
    rfl
  | cons c s ih =>
    have hend := slotEnd?_append (c :: s) w
    rw [List.cons_append] at hend ⊢
    unfold slotContents?
    rw [hend]
    cases slotEnd? (c :: s) with
    | some rest => rfl
    | none =>
      simp only [Option.map_none, ih]
      cases slotContents? s <;> rfl

theorem splitHeader?_append_of_some {header body : List Char} (h : splitHeader? s = some (header, body)) :
    splitHeader? (s ++ w) = some (header, body ++ w) := by
  induction s generalizing header with
  | nil => cases h
  | cons c s ih =>
    simp only [splitHeader?, Attribute.closeQuote?, List.cons_append] at h ⊢
    split
    · rename_i hc
      rw [if_pos hc] at h
      cases h
      rfl
    · rename_i hc
      rw [if_neg hc] at h
      obtain ⟨⟨inner, r⟩, hr, heq⟩ := Option.map_eq_some_iff.1 h
      cases heq
      have hrest : Attribute.closeQuote? '>' (s ++ w) = some (inner, r ++ w) := ih hr
      rw [hrest]
      rfl

theorem splitHeader?_append_of_none {header body : List Char} (h : splitHeader? s = none)
    (hw : splitHeader? (s ++ w) = some (header, body)) : body <:+ w := by
  induction s generalizing header with
  | nil =>
    obtain ⟨heq, -⟩ := Attribute.closeQuote?_eq_some hw
    exact ⟨header ++ ['>'], by simpa using heq.symm⟩
  | cons c s ih =>
    simp only [splitHeader?, Attribute.closeQuote?, List.cons_append] at h hw
    split at h
    · cases h
    · rename_i hc
      rw [if_neg hc] at hw
      obtain ⟨⟨inner, r⟩, hr, heq⟩ := Option.map_eq_some_iff.1 hw
      cases heq
      exact ih (Option.map_eq_none_iff.1 h) hr

/-- Behind a double quote without further tags, slots are found as without it. -/
theorem slot?_append (hw : '<' ∉ w) :
    slot? (s ++ '"' :: w) = (slot? s).map fun found => (found.1, found.2 ++ '"' :: w) := by
  cases s with
  | nil => exact slot_readsTags.opens '"' w (by decide)
  | cons c s =>
    by_cases hc : c = '<'
    · subst hc
      simp only [slot?, List.cons_append]
      rw [afterName_append (by decide) (by decide) (by decide)]
      cases afterName isBlank "slot".toList s with
      | none => rfl
      | some s =>
        have hends : endsName (s ++ '"' :: w) = endsName s := by
          cases s <;> rfl
        simp only [Option.map_some, hends]
        split
        · cases hsplit : splitHeader? s with
          | none =>
            cases hlater : splitHeader? (s ++ '"' :: w) with
            | none => rfl
            | some parts =>
              obtain ⟨header, body⟩ := parts
              have hbody := splitHeader?_append_of_none hsplit hlater
              have hnot : '<' ∉ body := fun hmem => absurd (hbody.subset hmem) (by simp [hw])
              simp only [slotContents?_of_not_mem hnot]
              cases slotName? 't' header <;> rfl
          | some parts =>
            obtain ⟨header, body⟩ := parts
            rw [splitHeader?_append_of_some hsplit]
            simp only [slotContents?_append hw]
            cases slotName? 't' header with
            | none => rfl
            | some found => cases slotContents? body <;> rfl
        · rfl
    · have h₁ : slot? (c :: (s ++ '"' :: w)) = none := slot_readsTags.opens c _ hc
      have h₂ : slot? (c :: s) = none := slot_readsTags.opens c s hc
      rw [List.cons_append, h₁, h₂]
      rfl

end Markup

end ComponentTags
