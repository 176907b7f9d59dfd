import ComponentTags.Text.Search
import Mathlib.Data.List.DropRight
import Mathlib.Data.List.Infix

/-!
# Pieces of a text

A text is cut at the occurrences of a literal, from its start, and what was cut at is not looked at again. So a
text is its pieces with the literal in between, and a character at the end of a text goes to its last piece, unless
it completes the literal there.
-/

namespace ComponentTags.Text

variable {literal s before rest : List Char} {c d : Char}

/-! ## All pieces -/

theorem splitOn_ne_nil (literal s : List Char) : splitOn literal s ≠ [] := by
  unfold splitOn
  split
  · split <;> exact List.cons_ne_nil _ _
  · exact List.cons_ne_nil _ _

/-- A text is its pieces with the literal in between. -/
theorem intercalate_splitOn (literal s : List Char) : literal.intercalate (splitOn literal s) = s := by
  fun_induction splitOn literal s with
  | case1 s before rest hcut => exact List.intercalate_singleton
  | case2 s before rest hcut hne ih =>
    rw [List.intercalate_cons_of_ne_nil (splitOn_ne_nil literal rest), ih]
    exact (cutAt?_eq_some hcut).symm
  | case3 => exact List.intercalate_singleton

theorem subset_intercalate {parts : List (List Char)} {part : List Char} (h : part ∈ parts) :
    part ⊆ literal.intercalate parts := by
  induction parts with
  | nil => cases h
  | cons first parts ih =>
    by_cases hnil : parts = []
    · subst hnil
      rw [List.mem_singleton.1 h, List.intercalate_singleton]
      exact List.Subset.refl _
    · rw [List.intercalate_cons_of_ne_nil hnil]
      intro c hc
      rcases List.mem_cons.1 h with rfl | h
      · simp [hc]
      · simp [ih h hc]

/-- The first pieces make up the beginning of the whole. -/
theorem intercalate_prefix (literal : List Char) {parts more : List (List Char)} (h : parts <+: more) :
    literal.intercalate parts <+: literal.intercalate more := by
  induction parts generalizing more with
  | nil => exact List.nil_prefix
  | cons first parts ih =>
    obtain ⟨behind, rfl⟩ := h
    have hrest : literal.intercalate parts <+: literal.intercalate (parts ++ behind) :=
      ih (List.prefix_append parts behind)
    by_cases hnil : parts = []
    · subst hnil
      rw [List.intercalate_singleton, List.cons_append, List.nil_append]
      by_cases hbehind : behind = []
      · rw [hbehind, List.intercalate_singleton]
      · rw [List.intercalate_cons_of_ne_nil hbehind, List.append_assoc]
        exact List.prefix_append _ _
    · rw [List.cons_append, List.intercalate_cons_of_ne_nil hnil, List.intercalate_cons_of_ne_nil (by simp [hnil])]
      exact (List.prefix_append_right_inj _).2 hrest

/-! ## The last piece -/

/-- The piece behind the last occurrence that a text is cut at. -/
def lastPiece (literal s : List Char) : List Char :=
  (splitOn literal s).getLastD []

theorem afterLiteral_eq_none_iff : afterLiteral literal s = none ↔ ¬ literal <+: s := by
  rw [Option.eq_none_iff_forall_ne_some]
  constructor
  · rintro h ⟨r, hr⟩
    exact h r (afterLiteral_eq_some_iff.2 hr.symm)
  · intro h r hr
    exact h ⟨r, (afterLiteral_eq_some_iff.1 hr).symm⟩

theorem cutAt?_eq_none_iff : cutAt? literal s = none ↔ ¬ literal <:+: s := by
  induction s with
  | nil => rw [cutAt?, Option.map_eq_none_iff, afterLiteral_eq_none_iff, List.prefix_nil, List.infix_nil]
  | cons c s ih =>
    rw [cutAt?, List.infix_cons_iff, not_or, ← afterLiteral_eq_none_iff, ← ih]
    cases afterLiteral literal (c :: s) <;> simp

/-- Where a text is cut, it is cut with more text behind it as well. -/
theorem cutAt?_append (h : cutAt? literal s = some (before, rest)) (t : List Char) :
    cutAt? literal (s ++ t) = some (before, rest ++ t) := by
  induction s generalizing before with
  | nil =>
    obtain ⟨r, hr, heq⟩ := Option.map_eq_some_iff.1 h
    cases heq
    obtain ⟨rfl, rfl⟩ := List.append_eq_nil_iff.1 (afterLiteral_eq_some_iff.1 hr).symm
    cases t <;> rfl
  | cons c s ih =>
    unfold cutAt? at h
    rw [List.cons_append, cutAt?]
    split at h
    · rename_i r hr
      cases h
      have hstarts : afterLiteral literal (c :: (s ++ t)) = some (rest ++ t) :=
        afterLiteral_eq_some_iff.2 (by rw [← List.cons_append, afterLiteral_eq_some_iff.1 hr, List.append_assoc])
      rw [hstarts]
    · rename_i hnone
      obtain ⟨⟨front, r⟩, hr, heq⟩ := Option.map_eq_some_iff.1 h
      cases heq
      have hlater : afterLiteral literal (c :: (s ++ t)) = none := by
        refine afterLiteral_eq_none_iff.2 fun hstarts => afterLiteral_eq_none_iff.1 hnone ?_
        have hlength := cutAt?_length hr
        refine List.prefix_of_prefix_length_le hstarts (List.prefix_append (c :: s) t) ?_
        rw [List.length_cons]
        omega
      rw [hlater, ih hr]
      rfl

theorem lastPiece_of_cutAt? (hne : literal ≠ []) (h : cutAt? literal s = some (before, rest)) :
    lastPiece literal s = lastPiece literal rest := by
  rw [lastPiece, splitOn]
  split
  · rename_i before' rest' hcut
    rw [h] at hcut
    cases hcut
    rw [if_neg hne, lastPiece]
    cases hpieces : splitOn literal rest with
    | nil => exact absurd hpieces (splitOn_ne_nil literal rest)
    | cons first pieces => rfl
  · rename_i hcut
    rw [h] at hcut
    cases hcut

theorem lastPiece_of_absent (h : ¬ literal <:+: s) : lastPiece literal s = s := by
  rw [lastPiece, splitOn_of_cutAt?_eq_none (cutAt?_eq_none_iff.2 h)]
  rfl

/-- The last piece of a text with one more character at its end. -/
theorem lastPiece_concat (hne : literal ≠ []) (s : List Char) (c : Char) :
    lastPiece literal (s ++ [c]) =
      if literal <:+ lastPiece literal s ++ [c] then [] else lastPiece literal s ++ [c] := by
  induction hlength : s.length using Nat.strongRecOn generalizing s with
  | ind n ih =>
    cases hcut : cutAt? literal s with
    | some found =>
      obtain ⟨before, rest⟩ := found
      have hshorter : rest.length < n := by
        have hparts := cutAt?_length hcut
        have hsize := List.length_pos_iff.2 hne
        omega
      rw [lastPiece_of_cutAt? hne (cutAt?_append hcut [c]), lastPiece_of_cutAt? hne hcut]
      exact ih rest.length hshorter rest rfl
    | none =>
      have habsent := cutAt?_eq_none_iff.1 hcut
      rw [lastPiece_of_absent habsent]
      split
      · rename_i hends
        obtain ⟨⟨before, rest⟩, hwhole⟩ : ∃ found, cutAt? literal (s ++ [c]) = some found := by
          refine Option.ne_none_iff_exists'.1 fun hnone => ?_
          exact cutAt?_eq_none_iff.1 hnone hends.isInfix
        have hrest : rest = [] := by
          rcases List.eq_nil_or_concat' rest with rfl | ⟨inner, d, rfl⟩
          · rfl
          · have heq := cutAt?_eq_some hwhole
            rw [← List.append_assoc] at heq
            exact absurd ⟨before, inner, (List.append_inj_left' heq rfl).symm⟩ habsent
        rw [lastPiece_of_cutAt? hne hwhole, hrest]
        exact lastPiece_of_absent fun hinfix => hne (List.infix_nil.1 hinfix)
      · rename_i hends
        refine lastPiece_of_absent fun hinfix => ?_
        exact (List.infix_concat_iff.1 hinfix).elim hends habsent

/-- What follows goes to the last piece if it shares no character with the literal. -/
theorem lastPiece_append (hne : literal ≠ []) {t : List Char} (apart : ∀ c ∈ t, c ∉ literal) (s : List Char) :
    lastPiece literal (s ++ t) = lastPiece literal s ++ t := by
  induction t using List.reverseRecOn with
  | nil => rw [List.append_nil, List.append_nil]
  | append_singleton t c ih =>
    have hfront := ih fun d hd => apart d (by simp [hd])
    have hends : ¬ literal <:+ lastPiece literal s ++ t ++ [c] := by
      rintro ⟨front, heq⟩
      rcases List.eq_nil_or_concat' literal with rfl | ⟨inner, d, rfl⟩
      · exact hne rfl
      · have hlast := (List.append_inj' (heq.symm.trans (List.append_assoc _ _ _).symm) rfl).2
        cases hlast
        exact apart c (by simp) (by simp)
    rw [← List.append_assoc, lastPiece_concat hne, hfront, if_neg hends, List.append_assoc]

theorem lastPiece_concat_self (c : Char) (s : List Char) : lastPiece [c] (s ++ [c]) = [] := by
  rw [lastPiece_concat (List.cons_ne_nil c []), if_pos (List.suffix_append _ _)]

/-! ## Doubled characters -/

/-- How many times a character stands at the end of a text. -/
def trailing (c : Char) (s : List Char) : Nat :=
  (s.rtakeWhile (· = c)).length

theorem trailing_concat_self (c : Char) (s : List Char) : trailing c (s ++ [c]) = trailing c s + 1 := by
  rw [trailing, List.rtakeWhile_concat_pos _ _ _ (by simp), List.length_append, List.length_singleton, trailing]

theorem trailing_concat_of_ne (h : d ≠ c) (s : List Char) : trailing c (s ++ [d]) = 0 := by
  rw [trailing, List.rtakeWhile_concat_neg _ _ _ (by simpa using h), List.length_nil]

theorem trailing_append {t : List Char} (h : c ∉ t) (s : List Char) : trailing c (t ++ s) = trailing c s := by
  induction s using List.reverseRecOn with
  | nil =>
    rcases List.eq_nil_or_concat' t with rfl | ⟨front, d, rfl⟩
    · rfl
    · have hd : d ≠ c := by
        rintro rfl
        exact h (by simp)
      rw [List.append_nil, trailing_concat_of_ne hd]
      rfl
  | append_singleton s d ih =>
    rw [← List.append_assoc]
    by_cases hd : d = c
    · rw [hd, trailing_concat_self, trailing_concat_self, ih]
    · rw [trailing_concat_of_ne hd, trailing_concat_of_ne hd]

theorem pair_suffix_concat_iff : [c, c] <:+ s ++ [d] ↔ s.getLast? = some c ∧ d = c := by
  constructor
  · rintro ⟨front, heq⟩
    have hsplit : front ++ [c] ++ [c] = s ++ [d] := by simpa using heq
    obtain ⟨hs, hd⟩ := List.append_inj' hsplit rfl
    cases hd
    exact ⟨by simp [← hs], rfl⟩
  · rintro ⟨hlast, rfl⟩
    obtain ⟨front, rfl⟩ := List.getLast?_eq_some_iff.1 hlast
    exact ⟨front, by simp⟩

theorem lastPiece_pair_concat (c d : Char) (s : List Char) :
    lastPiece [c, c] (s ++ [d]) =
      if (lastPiece [c, c] s).getLast? = some c ∧ d = c then [] else lastPiece [c, c] s ++ [d] := by
  rw [lastPiece_concat (List.cons_ne_nil c [c])]
  simp only [pair_suffix_concat_iff]

/-- The characters of a run pair off from its start, and the last one is left if their number is odd. -/
theorem getLast?_lastPiece_pair : (lastPiece [c, c] s).getLast? = some c ↔ trailing c s % 2 = 1 := by
  induction s using List.reverseRecOn with
  | nil =>
    have hnil : lastPiece [c, c] [] = [] := lastPiece_of_absent fun h => by simpa using List.infix_nil.1 h
    simp [hnil, trailing]
  | append_singleton s d ih =>
    by_cases hd : d = c
    · subst hd
      rw [lastPiece_pair_concat, trailing_concat_self]
      by_cases hodd : trailing d s % 2 = 1
      · have hnext : ¬ (trailing d s + 1) % 2 = 1 := by omega
        simp [ih, hodd, hnext]
      · have hnext : (trailing d s + 1) % 2 = 1 := by omega
        simp [ih, hodd, hnext]
    · rw [lastPiece_pair_concat, if_neg fun h => hd h.2, trailing_concat_of_ne hd]
      simp [hd]

/-- Behind a doubled character at the end of a text nothing is left, or one character of an odd run. -/
theorem lastPiece_append_pair (c : Char) (s : List Char) :
    lastPiece [c, c] (s ++ [c, c]) = List.replicate (trailing c s % 2) c := by
  have hsplit : s ++ [c, c] = s ++ [c] ++ [c] := by simp
  rw [hsplit, lastPiece_pair_concat, lastPiece_pair_concat]
  by_cases hodd : trailing c s % 2 = 1
  · simp [getLast?_lastPiece_pair, hodd]
  · have heven : trailing c s % 2 = 0 := by omega
    simp [getLast?_lastPiece_pair, heven]

end ComponentTags.Text
