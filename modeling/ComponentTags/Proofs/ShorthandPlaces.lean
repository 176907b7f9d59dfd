import ComponentTags.Proofs.ShorthandMarks

/-!
# The shorthand written out again

Writing out the shorthand puts the marker in front of some colons and keeps everything else, so the quotes of the
text stay as they are and pair as before. A colon that is left has no name behind it, does not stand apart or
stands inside a run between two equal quotes, and the marker in front of it does not change that. Therefore no
shorthand is left in the text, and writing it out again changes nothing.
-/

namespace ComponentTags.Attribute

variable {s t u rest name run : List Char} {c quote : Char} {apart : Bool} {m : Nat → Bool} {i k : Nat}

/-! ## Places outside of quotes -/

/-- A place outside of all runs between two equal quotes. The text is read from its start: a quote that comes once
more opens a run up to there, and a quote that does not is passed like any other character. -/
inductive Outside : List Char → Nat → Prop where
  | start (s : List Char) : Outside s 0
  | run {quote : Char} {inner s : List Char} {k : Nat} (isQuote : quote = '"' ∨ quote = '\'') (plain : quote ∉ inner)
      (rest : Outside s k) : Outside (quote :: inner ++ quote :: s) (inner.length + 2 + k)
  | char {c : Char} {s : List Char} {k : Nat} (unpaired : c = '"' ∨ c = '\'' → c ∉ s) (rest : Outside s k) :
      Outside (c :: s) (k + 1)

theorem closeQuote?_eq_none_iff : closeQuote? quote s = none ↔ quote ∉ s := by
  induction s with
  | nil => simp [closeQuote?]
  | cons c s ih =>
    by_cases hc : c = quote
    · simp [closeQuote?, hc]
    · simp [closeQuote?, hc, ih, Ne.symm hc]

/-- A character starts no run if it is no quote, or one that does not come again. -/
theorem quotedRun?_cons_eq_none_iff :
    quotedRun? (c :: s) = none ↔ (c = '"' ∨ c = '\'' → c ∉ s) := by
  by_cases hc : c = '"' ∨ c = '\''
  · simp [quotedRun?, hc, closeQuote?_eq_none_iff]
  · rw [not_or] at hc
    simp [quotedRun?_cons_of_ne hc.1 hc.2, hc]

theorem quotedRun?_append_of_quotedRun? (h : quotedRun? s = some (run, rest)) (t : List Char) :
    quotedRun? (run ++ t) = some (run, t) := by
  obtain ⟨quote, inner, isQuote, plain, -, rfl⟩ := quotedRun?_eq_some h
  simpa using quotedRun?_quoted isQuote plain

theorem outside_iff : Outside s k ↔ k ≤ s.length ∧ insideRun s k = false := by
  constructor
  · intro h
    induction h with
    | start s => exact ⟨Nat.zero_le _, insideRun_zero s⟩
    | @run quote inner s k isQuote plain rest ih =>
      have hrun := quotedRun?_quoted (s := s) isQuote plain
      have hlength : (quote :: inner ++ [quote]).length = inner.length + 2 := by simp
      rw [List.cons_append, insideRun_of_quotedRun? hrun, hlength, if_neg (by omega), Nat.add_sub_cancel_left]
      refine ⟨?_, ih.2⟩
      simp only [List.length_append, List.length_cons]
      omega
    | char unpaired rest ih =>
      rw [insideRun_cons_succ (quotedRun?_cons_eq_none_iff.2 unpaired)]
      exact ⟨Nat.succ_le_succ ih.1, ih.2⟩
  · rintro ⟨hle, hout⟩
    fun_induction insideRun s k with
    | case1 s k run rest hrun hlt =>
      cases k with
      | zero => exact .start s
      | succ k => cases hout
    | case2 s k run rest hrun hge ih =>
      obtain ⟨quote, inner, isQuote, plain, rfl, rfl⟩ := quotedRun?_eq_some hrun
      simp only [List.length_append, List.length_cons, List.length_nil] at hle hge ih
      obtain ⟨j, rfl⟩ : ∃ j, k = inner.length + 2 + j := ⟨k - (inner.length + 2), by omega⟩
      rw [Nat.add_sub_cancel_left] at ih
      exact .run isQuote plain (ih (by omega) (by simpa using hout))
    | case3 k hrun =>
      rw [Nat.le_zero.1 hle]
      exact .start []
    | case4 => exact .start _
    | case5 c s k hrun ih =>
      exact .char (quotedRun?_cons_eq_none_iff.1 hrun) (ih (Nat.le_of_succ_le_succ hle) hout)

/-! ## The places of the shorthand -/

/-- A shorthand stands at a place: a colon and a character of names, at the start of the text or behind white space,
outside of all runs. -/
def IsShorthandAt (t : List Char) (k : Nat) : Prop :=
  ∃ before c rest, t = before ++ ':' :: c :: rest ∧ before.length = k ∧ isPlainNameChar c = true ∧
    (∀ b ∈ before.getLast?, Text.isBlank b = true) ∧ Outside t k

theorem isApart_true_iff : isApart true u = true ↔ ∀ b ∈ u.getLast?, Text.isBlank b = true := by
  rcases List.eq_nil_or_concat u with rfl | ⟨v, b, rfl⟩
  · simp [isApart]
  · rw [List.concat_eq_append, isApart_append, List.getLast?_concat]
    simp [isApart]

/-- The marked places are those of the shorthand. -/
theorem marks_iff : marks t k = true ↔ IsShorthandAt t k := by
  rw [marks, marksFrom, Bool.and_eq_true, Bool.and_eq_true, Bool.not_eq_true', isApart_true_iff]
  constructor
  · rintro ⟨⟨hapart, hname⟩, hout⟩
    obtain ⟨c, rest, hdrop, hc⟩ := exists_of_shorthand?_isSome hname
    have ht : t = t.take k ++ ':' :: c :: rest := by rw [← hdrop, List.take_append_drop]
    have hle : k ≤ t.length := by
      have hlength := congrArg List.length hdrop
      simp only [List.length_drop, List.length_cons] at hlength
      omega
    exact ⟨t.take k, c, rest, ht, List.length_take_of_le hle, hc, hapart, outside_iff.2 ⟨hle, hout⟩⟩
  · rintro ⟨before, c, rest, rfl, rfl, hc, hapart, hout⟩
    rw [List.take_left, List.drop_left]
    exact ⟨⟨hapart, shorthand?_isSome hc⟩, (outside_iff.1 hout).2⟩

theorem length_le_length_markFrom (m : Nat → Bool) (i : Nat) (s : List Char) :
    s.length ≤ (markFrom m i s).length := by
  induction s generalizing i with
  | nil => exact Nat.le_refl 0
  | cons c s ih =>
    have hrest := ih (i + 1)
    simp only [markFrom, List.length_append, List.length_cons]
    omega

theorem eq_false_of_markFrom_eq_self (h : markFrom m i s = s) : ∀ k < s.length, m (i + k) = false := by
  induction s generalizing i with
  | nil => simp
  | cons c s ih =>
    have hhere : m i = false := by
      cases hm : m i with
      | false => rfl
      | true =>
        have hlength := congrArg List.length h
        have hrest := length_le_length_markFrom m (i + 1) s
        have hbind : "bind".toList.length = 4 := rfl
        simp only [markFrom, hm, if_true, List.length_append, List.length_cons, hbind] at hlength
        omega
    intro k hk
    cases k with
    | zero => exact hhere
    | succ k =>
      simp only [markFrom, hhere, Bool.false_eq_true, if_false, List.nil_append, List.cons.injEq, true_and] at h
      have hnext := ih h k (Nat.lt_of_succ_lt_succ hk)
      rwa [Nat.add_right_comm] at hnext

/-- A text stays as it is exactly if no shorthand stands in it. -/
theorem expandShorthand_eq_self_iff : expandShorthand t = t ↔ ∀ k, ¬ IsShorthandAt t k := by
  rw [expandShorthand_eq_markFrom]
  constructor
  · intro h k hk
    have hlt : k < t.length := by
      obtain ⟨before, c, rest, rfl, rfl, -⟩ := hk
      simp
    have hnone := eq_false_of_markFrom_eq_self h k hlt
    rw [Nat.zero_add, marks_iff.2 hk] at hnone
    cases hnone
  · intro h
    refine markFrom_eq_self fun k _ => ?_
    rw [Nat.zero_add, Bool.eq_false_iff]
    exact fun hmark => h k (marks_iff.1 hmark)

/-! ## Writing out once more -/

theorem expandRest_cons_of_quotedRun?_eq_none (hrun : quotedRun? (c :: s) = none)
    (hblank : Text.isBlank c = false) : expandRest (c :: s) = c :: expandRest s := by
  rw [expandRest]
  split
  · rename_i found
    rw [hrun] at found
    cases found
  · simp [hblank]

/-- No character is written in front of the first one, behind which a shorthand would stand apart. -/
theorem head?_expandRest (s : List Char) : (expandRest s).head? = s.head? := by
  fun_induction expandRest s with
  | case1 s run rest hrun ih =>
    obtain ⟨quote, inner, -, -, rfl, rfl⟩ := quotedRun?_eq_some hrun
    rfl
  | case2 => rfl
  | case3 => rfl
  | case4 => rfl
  | case5 => rfl

theorem shorthand?_colon_eq_none_iff :
    shorthand? (':' :: s) = none ↔ ∀ c ∈ s.head?, isPlainNameChar c = false := by
  cases s with
  | nil => simp [shorthand?]
  | cons c s =>
    cases hc : isPlainNameChar c <;> simp [shorthand?, hc]

/-- Where no shorthand stood at the start, there is none when the rest is written out. -/
theorem shorthand?_expandRest (h : shorthand? s = none) : shorthand? (expandRest s) = none := by
  cases s with
  | nil => rwa [expandRest_nil]
  | cons c s =>
    by_cases hc : c = ':'
    · subst hc
      rw [expandRest_cons_of_not_blank (by decide) (by decide) (by decide), shorthand?_colon_eq_none_iff,
        head?_expandRest]
      exact shorthand?_colon_eq_none_iff.1 h
    · have hhead := head?_expandRest (c :: s)
      cases hexpanded : expandRest (c :: s) with
      | nil => rfl
      | cons d r =>
        rw [hexpanded, List.head?_cons, List.head?_cons, Option.some.injEq] at hhead
        exact shorthand?_cons_of_ne (hhead ▸ hc)

/-- A quote that had no partner has none in the text that was written out. -/
theorem quotedRun?_cons_expandRest (h : quotedRun? (c :: s) = none) : quotedRun? (c :: expandRest s) = none := by
  rw [quotedRun?_cons_eq_none_iff] at h ⊢
  intro isQuote hmem
  rcases (expanded_expandRest s).mem hmem with hmem | hmark
  · exact h isQuote hmem
  · rcases isQuote with rfl | rfl <;> exact absurd hmark (by decide)

theorem isCopied_of_mem_name (h : shorthand? s = some (name, rest)) : ∀ c ∈ bindMarker ++ name, IsCopied c := by
  have mark : ∀ c ∈ bindMarker, isNameChar c = true := List.all_eq_true.1 (by decide)
  intro c hc
  rcases List.mem_append.1 hc with hc | hc
  · exact isCopied_of_isNameChar (mark c hc)
  · exact isCopied_of_isNameChar (isNameChar_of_isPlainNameChar ((shorthand?_eq_some h).2 c hc))

theorem expandShorthand_of_shorthand?_eq_none (h : shorthand? s = none) : expandShorthand s = expandRest s := by
  rw [expandShorthand, h]

/-- A shorthand that was written out stays. -/
theorem expandShorthand_marked (h : shorthand? s = some (name, rest)) (t : List Char) :
    expandShorthand (bindMarker ++ name ++ t) = bindMarker ++ name ++ expandRest t := by
  rw [← expandRest_append_of_isCopied (isCopied_of_mem_name h)]
  exact expandShorthand_cons_of_ne (by decide)

theorem expandRest_expandRest (s : List Char) : expandRest (expandRest s) = expandRest s := by
  fun_induction expandRest s with
  | case1 s run rest hrun ih =>
    rw [expandRest_of_quotedRun? (quotedRun?_append_of_quotedRun? hrun (expandRest rest)), ih]
  | case2 => exact expandRest_nil
  | case3 c s hrun hblank name rest hname ih =>
    rw [List.cons_append, List.cons_append, expandRest_cons_of_blank hblank, expandShorthand_marked hname, ih]
  | case4 c s hrun hblank hname ih =>
    rw [expandRest_cons_of_blank hblank, expandShorthand_of_shorthand?_eq_none (shorthand?_expandRest hname), ih]
  | case5 c s hrun hblank ih =>
    rw [expandRest_cons_of_quotedRun?_eq_none (quotedRun?_cons_expandRest hrun) (by simpa using hblank), ih]

/-- Writing out the shorthand of a text puts the marker in front of the colons at which a shorthand stands, all of
which are outside of the runs between two equal quotes, and keeps the text besides. No shorthand stands in what
comes out, so writing it out again changes nothing, and the attributes that are read stay the same. -/
theorem expandShorthand_places (t : List Char) :
    (∀ k, marks t k = true ↔ IsShorthandAt t k) ∧
    expandShorthand t = markFrom (marks t) 0 t ∧
    (∀ k, ¬ IsShorthandAt (expandShorthand t) k) ∧
    expandShorthand (expandShorthand t) = expandShorthand t ∧
    parse (expandShorthand t) = parse t := by
  have again : expandShorthand (expandShorthand t) = expandShorthand t := by
    cases hname : shorthand? t with
    | none =>
      rw [expandShorthand_of_shorthand?_eq_none hname,
        expandShorthand_of_shorthand?_eq_none (shorthand?_expandRest hname), expandRest_expandRest]
    | some found =>
      obtain ⟨name, rest⟩ := found
      have hfirst : expandShorthand t = bindMarker ++ name ++ expandRest rest := by rw [expandShorthand, hname]
      rw [hfirst, expandShorthand_marked hname, expandRest_expandRest]
  refine ⟨fun k => marks_iff, expandShorthand_eq_markFrom t, expandShorthand_eq_self_iff.1 again, again, ?_⟩
  rw [parse, again, parse]

end ComponentTags.Attribute
