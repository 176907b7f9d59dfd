import ComponentTags.Markup.Closing
import ComponentTags.Markup.Opening
import ComponentTags.Markup.SelfClosing
import ComponentTags.Markup.Slot
import ComponentTags.Proofs.TagHead

/-!
# What the patterns read

Where one of the four patterns accepts, the head of a tag with its name stands, and the texts that it
hands over are parts of the text that it reads.
-/

namespace ComponentTags.Markup

open Text (isBlank isInlineBlank)

variable {name s rest : List Char}

/-- The head of a tag of the name stands at the very place. -/
def StartsHead (name s : List Char) : Prop :=
  ∃ head after, IsTagHead name head ∧ s = head ++ after ∧ endsName after = true

theorem StartsHead.standsIn (h : StartsHead name s) : ∃ head, IsTagHead name head ∧ StandsIn head s := by
  obtain ⟨head, after, hhead, rfl, hafter⟩ := h
  exact ⟨head, hhead, .append_of_ends hafter⟩

theorem isGap_of_all {blank : Char → Bool} {gap : List Char} (h : gap.all blank = true)
    (hblank : ∀ c, blank c = true → isBlank c = true) : IsGap gap := by
  rw [List.all_eq_true] at h
  refine ⟨fun c hc => .inl (hblank c (h c hc)), ?_⟩
  have hslash : '/' ∉ gap := by
    intro hmem
    exact absurd (hblank _ (h _ hmem)) (by decide)
  rw [List.count_eq_zero_of_not_mem hslash]
  exact Nat.zero_le 1

theorem isBlank_of_isInlineBlank (c : Char) (h : isInlineBlank c = true) : isBlank c = true := by
  simp only [isInlineBlank, Bool.and_eq_true] at h
  exact h.1

/-- A name that is found behind white space makes a head, if no longer name continues it. -/
theorem startsHead_of_afterName {blank : Char → Bool}
    (hblank : ∀ c, blank c = true → isBlank c = true)
    (h : afterName blank name s = some rest) (hends : endsName rest = true) :
    StartsHead name ('<' :: s) := by
  obtain ⟨gap, rfl, hall⟩ := eq_append_of_afterName h
  exact ⟨_, rest, ⟨gap, isGap_of_all hall hblank, rfl⟩, by simp, hends⟩

/-! ## Closing tags -/

theorem closing?_eq_some (h : closing? name s = some ((), rest)) :
    ∃ r after, s = '<' :: '/' :: r ∧ afterName isBlank name r = some after ∧
      endsName after = true ∧ afterTagEnd? after = some rest := by
  unfold closing? at h
  split at h
  · rename_i r
    split at h
    · rename_i after hname
      split at h
      · rename_i hends
        obtain ⟨rest', hrest, heq⟩ := Option.map_eq_some_iff.1 h
        cases heq
        exact ⟨r, after, rfl, hname, hends, hrest⟩
      · cases h
    · cases h
  · cases h

theorem closing_readsTags (name : List Char) : (closing name).ReadsTags where
  opens := by
    intro c s hc
    show closing? name (c :: s) = none
    unfold closing?
    split
    · rename_i heq
      exact absurd (List.cons.inj heq).1 hc
    · rfl
  follows := by
    intro s a rest h
    obtain ⟨r, after, rfl, hname, -, hend⟩ := closing?_eq_some h
    exact (afterTagEnd?_suffix hend).trans ((afterName_suffix hname).trans
      ((List.suffix_cons '/' r).trans (List.suffix_cons '<' _)))

theorem startsHead_of_closing? (h : closing? name s = some ((), rest)) : StartsHead name s := by
  obtain ⟨r, after, rfl, hname, hends, -⟩ := closing?_eq_some h
  obtain ⟨gap, rfl, hall⟩ := eq_append_of_afterName hname
  obtain ⟨hchars, hcount⟩ := isGap_of_all hall fun _ h => h
  have hslash : gap.count '/' = 0 := by
    rw [List.count_eq_zero]
    intro hmem
    exact absurd (List.all_eq_true.1 hall _ hmem) (by decide)
  refine ⟨'<' :: ('/' :: gap ++ name), after, ⟨'/' :: gap, ⟨?_, ?_⟩, rfl⟩, by simp, hends⟩
  · intro c hc
    rcases List.mem_cons.1 hc with rfl | hc
    · exact .inr rfl
    · exact hchars c hc
  · have hone : ('/' :: gap).count '/' = 1 := by rw [List.count_cons_self, hslash]
    exact Nat.le_of_eq hone

/-! ## Opening tags -/

theorem openingRest?_append {last : Char} {text : List Char}
    (h : openingRest? last s = some (text, rest)) : s = text ++ '>' :: rest := by
  fun_induction openingRest? last s generalizing text with
  | case1 => cases h
  | case2 last s _ =>
    simp only [Option.some.injEq, Prod.mk.injEq] at h
    rw [← h.1, ← h.2, List.nil_append]
  | case3 => cases h
  | case4 last c s _ _ item rest' hitem ih =>
    obtain ⟨⟨inner, r⟩, hr, heq⟩ := Option.map_eq_some_iff.1 h
    simp only [Prod.mk.injEq] at heq
    obtain ⟨rfl, rfl⟩ := heq
    have hs := (List.takeWhile_append_dropWhile (p := isBlank) (l := s)).symm
    rw [tagAttribute?_append hitem, ih hr] at hs
    simpa using hs
  | case5 last c s _ _ _ r hr =>
    simp only [Option.some.injEq, Prod.mk.injEq] at h
    have hs := (List.takeWhile_append_dropWhile (p := isBlank) (l := s)).symm
    rw [hr, h.2] at hs
    rw [← h.1, List.cons_append, ← hs]
  | case6 => cases h
  | case7 => cases h

/-- What follows the name of an opening tag is white space or the end of the tag. -/
theorem endsName_of_openingRest? {last : Char} {text : List Char}
    (h : openingRest? last s = some (text, rest)) : endsName s = true := by
  cases s with
  | nil => rfl
  | cons c s =>
    unfold openingRest? at h
    by_cases hend : c = '>'
    · rw [hend]; rfl
    · rw [if_neg hend] at h
      by_cases hblank : isBlank c = true
      · simp [endsName, continuesName_of_isBlank hblank]
      · rw [if_neg hblank] at h
        cases h

theorem opening?_eq_some {text : List Char} (h : opening? name s = some (text, rest)) :
    ∃ r after, s = '<' :: r ∧ afterName isBlank name r = some after ∧
      openingRest? (name.getLastD '<') after = some (text, rest) := by
  unfold opening? at h
  split at h
  · rename_i r
    split at h
    · rename_i after hname
      exact ⟨r, after, rfl, hname, h⟩
    · cases h
  · cases h

theorem opening_readsTags (name : List Char) : (opening name).ReadsTags where
  opens := by
    intro c s hc
    show opening? name (c :: s) = none
    unfold opening?
    split
    · rename_i heq
      exact absurd (List.cons.inj heq).1 hc
    · rfl
  follows := by
    intro s text rest h
    obtain ⟨r, after, rfl, hname, hrest⟩ := opening?_eq_some h
    exact (openingRest?_suffix hrest).trans
      ((afterName_suffix hname).trans (List.suffix_cons '<' r))

theorem startsHead_of_opening? {text : List Char} (h : opening? name s = some (text, rest)) :
    StartsHead name s := by
  obtain ⟨r, after, rfl, hname, hrest⟩ := opening?_eq_some h
  exact startsHead_of_afterName (fun _ h => h) hname (endsName_of_openingRest? hrest)

theorem standsIn_of_opening? {text : List Char} (h : opening? name s = some (text, rest)) :
    StandsIn text s := by
  obtain ⟨r, after, rfl, hname, hrest⟩ := opening?_eq_some h
  have hafter := openingRest?_append hrest
  have htext : StandsIn text after := hafter ▸ .append_of_ends (by rfl)
  exact htext.trans (.of_isSuffix ((afterName_suffix hname).trans (List.suffix_cons '<' r)))

/-! ## Self-closing elements -/

/-- The text runs up to `/>` on the same line, perhaps with white space in front of that end. -/
def RunsToEnd (s text rest : List Char) : Prop :=
  ∃ gap, s = text ++ gap ++ '/' :: '>' :: rest ∧ (∀ c ∈ gap, isInlineBlank c = true) ∧ '\n' ∉ text

theorem RunsToEnd.cons {c : Char} {text : List Char} (hc : c ≠ '\n') (h : RunsToEnd s text rest) :
    RunsToEnd (c :: s) (c :: text) rest := by
  obtain ⟨gap, rfl, hgap, htext⟩ := h
  refine ⟨gap, by simp, hgap, ?_⟩
  rw [List.mem_cons, not_or]
  exact ⟨Ne.symm hc, htext⟩

theorem runsToEnd_of_selfClosingEnd? (h : selfClosingEnd? s = some rest) : RunsToEnd s [] rest := by
  unfold selfClosingEnd? at h
  split at h
  · rename_i r hr
    rw [Option.some.injEq] at h
    subst h
    refine ⟨s.takeWhile isInlineBlank, ?_, ?_, List.not_mem_nil⟩
    · rw [List.nil_append, ← hr, List.takeWhile_append_dropWhile]
    · intro c hc
      exact List.all_eq_true.1 List.all_takeWhile c hc
  · cases h

theorem Reading.extend_eq_cons {c : Char} {r : Reading} {text : List Char}
    (h : Reading.extend c r = some (text, rest)) :
    ∃ inner, text = c :: inner ∧ r = some (inner, rest) := by
  cases r with
  | none => cases h
  | some found =>
    simp only [Reading.extend, Option.map_some, Option.some.injEq, Prod.mk.injEq] at h
    exact ⟨found.1, h.1.symm, by rw [← h.2]⟩

/-- Every reading of a line runs to a `/>` on it. -/
theorem readLine_runsToEnd (s : List Char) {text rest : List Char} :
    ((readLine s).here = some (text, rest) → RunsToEnd s text rest) ∧
    ((readLine s).pastDouble = some (text, rest) → RunsToEnd s text rest) ∧
    ((readLine s).pastSingle = some (text, rest) → RunsToEnd s text rest) := by
  induction s generalizing text with
  | nil => simp [readLine]
  | cons c s ih =>
    by_cases hn : c = '\n'
    · simp [readLine, hn]
    · have step {r : Reading} (hr : ∀ {t}, r = some (t, rest) → RunsToEnd s t rest)
          (h : Reading.extend c r = some (text, rest)) : RunsToEnd (c :: s) text rest := by
        obtain ⟨inner, rfl, hinner⟩ := Reading.extend_eq_cons h
        exact (hr hinner).cons hn
      have run {quote : Char} {r : Reading} (hr : ∀ {t}, r = some (t, rest) → RunsToEnd s t rest)
          (h : Reading.extend c (if c = quote then (readLine s).here else r) = some (text, rest)) :
          RunsToEnd (c :: s) text rest := by
        split at h
        · exact step (fun h => ih.1 h) h
        · exact step hr h
      simp only [readLine, hn, if_false]
      refine ⟨fun h => ?_, run (fun h => ih.2.1 h), run (fun h => ih.2.2 h)⟩
      split at h
      · rename_i r hend
        cases h
        exact runsToEnd_of_selfClosingEnd? hend
      · refine step (fun {t} ht => ?_) h
        rcases Option.or_eq_some_iff.1 ht with ht | ⟨-, ht⟩
        · split at ht
          · exact ih.2.1 ht
          · split at ht
            · exact ih.2.2 ht
            · cases ht
        · split at ht
          · cases ht
          · exact ih.1 ht

theorem selfClosing?_eq_some {text : List Char} (h : selfClosing? name s = some (text, rest)) :
    ∃ r after, s = '<' :: r ∧ afterName isInlineBlank name r = some after ∧
      endsName after = true ∧
      (readLine (after.dropWhile isInlineBlank)).here = some (text, rest) := by
  unfold selfClosing? at h
  split at h
  · rename_i r
    split at h
    · rename_i after hname
      split at h
      · rename_i hends
        exact ⟨r, after, rfl, hname, hends, h⟩
      · cases h
    · cases h
  · cases h

theorem selfClosing_readsTags (name : List Char) : (selfClosing name).ReadsTags where
  opens := by
    intro c s hc
    show selfClosing? name (c :: s) = none
    unfold selfClosing?
    split
    · rename_i heq
      exact absurd (List.cons.inj heq).1 hc
    · rfl
  follows := by
    intro s text rest h
    obtain ⟨r, after, rfl, hname, -, hread⟩ := selfClosing?_eq_some h
    exact ((readLine_suffix _).1 hread).trans ((List.dropWhile_suffix _).trans
      ((afterName_suffix hname).trans (List.suffix_cons '<' r)))

theorem startsHead_of_selfClosing? {text : List Char}
    (h : selfClosing? name s = some (text, rest)) : StartsHead name s := by
  obtain ⟨r, after, rfl, hname, hends, -⟩ := selfClosing?_eq_some h
  exact startsHead_of_afterName isBlank_of_isInlineBlank hname hends

theorem standsIn_of_selfClosing? {text : List Char} (h : selfClosing? name s = some (text, rest)) :
    StandsIn text s := by
  obtain ⟨r, after, rfl, hname, -, hread⟩ := selfClosing?_eq_some h
  obtain ⟨gap, hline, hgap, -⟩ := (readLine_runsToEnd _).1 hread
  have hends : endsName (gap ++ '/' :: '>' :: rest) = true := by
    cases gap with
    | nil => rfl
    | cons c gap =>
      have hc := isBlank_of_isInlineBlank c (hgap c (by simp))
      simp [endsName, continuesName_of_isBlank hc]
  have htext : StandsIn text (after.dropWhile isInlineBlank) := by
    rw [hline, List.append_assoc]
    exact .append_of_ends hends
  exact htext.trans (.of_isSuffix ((List.dropWhile_suffix _).trans
    ((afterName_suffix hname).trans (List.suffix_cons '<' r))))

/-! ## Slots -/

theorem nameValue?_eq_some {found : List Char} (h : nameValue? s = some found) :
    ∃ front c back, s = front ++ found ++ c :: back ∧ continuesName c = false := by
  unfold nameValue? at h
  split at h
  · rename_i r hr
    split at h
    · rename_i c value
      split at h
      · rename_i hquote
        obtain ⟨⟨inner, back⟩, hclose, heq⟩ := Option.map_eq_some_iff.1 h
        cases heq
        obtain ⟨hvalue, -⟩ := Attribute.closeQuote?_eq_some hclose
        refine ⟨"name=".toList ++ [c], c, back, ?_, ?_⟩
        · rw [Text.afterLiteral_eq_some_iff.1 hr, hvalue]
          simp
        · simp only [Bool.or_eq_true, decide_eq_true_eq] at hquote
          rcases hquote with rfl | rfl <;> decide
      · cases h
    · cases h
  · cases h

theorem standsIn_of_slotName? {last : Char} {found : List Char} (h : slotName? last s = some found) :
    StandsIn found s := by
  induction s generalizing last with
  | nil => cases h
  | cons c s ih =>
    unfold slotName? at h
    split at h
    · rename_i name hname
      cases h
      split at hname
      · cases hname
      · obtain ⟨front, d, back, hs, hd⟩ := nameValue?_eq_some hname
        exact ⟨front, d :: back, hs, by simp [endsName, hd]⟩
    · exact (ih h).trans (.of_isSuffix (List.suffix_cons c s))

/-- The contents of a slot run up to a closing slot tag. -/
theorem slotContents?_eq_some {contents : List Char} (h : slotContents? s = some (contents, rest)) :
    ∃ closer, s = contents ++ closer ∧ slotEnd? closer = some rest := by
  induction s generalizing contents with
  | nil =>
    unfold slotContents? at h
    split at h
    · rename_i r hr
      cases h
      exact ⟨[], rfl, hr⟩
    · cases h
  | cons c s ih =>
    unfold slotContents? at h
    split at h
    · rename_i r hr
      cases h
      exact ⟨c :: s, rfl, hr⟩
    · obtain ⟨⟨inner, r⟩, hinner, heq⟩ := Option.map_eq_some_iff.1 h
      cases heq
      obtain ⟨closer, rfl, hend⟩ := ih hinner
      exact ⟨closer, rfl, hend⟩

theorem slotEnd?_cons_of_ne {c : Char} (hc : c ≠ '<') (s : List Char) :
    slotEnd? (c :: s) = none := by
  unfold slotEnd?
  split
  · rename_i heq
    exact absurd (List.cons.inj heq).1 hc
  · rfl

theorem slotEnd?_eq_some (h : slotEnd? s = some rest) :
    ∃ gap middle last, s = '<' :: (gap ++ '/' :: (middle ++ "slot".toList ++ (last ++ '>' :: rest))) ∧
      gap.all isBlank = true ∧ middle.all isBlank = true ∧ last.all isBlank = true := by
  have cut (s : List Char) : s = s.takeWhile isBlank ++ s.dropWhile isBlank :=
    List.takeWhile_append_dropWhile.symm
  unfold slotEnd? at h
  split at h
  · rename_i r
    split at h
    · rename_i named hslash
      split at h
      · rename_i ending hname
        split at h
        · rename_i behind hend
          cases h
          refine ⟨r.takeWhile isBlank, named.takeWhile isBlank, ending.takeWhile isBlank, ?_,
            List.all_takeWhile, List.all_takeWhile, List.all_takeWhile⟩
          rw [← hend, ← cut ending, List.append_assoc, ← Text.afterLiteral_eq_some_iff.1 hname,
            ← cut named, ← hslash, ← cut r]
        · cases h
      · cases h
    · cases h
  · cases h

theorem endsName_of_slotEnd? (h : slotEnd? s = some rest) : endsName s = true := by
  cases s with
  | nil => rfl
  | cons c s =>
    by_cases hc : c = '<'
    · rw [hc]; rfl
    · rw [slotEnd?_cons_of_ne hc] at h
      cases h

/-- A slot is its name behind white space, a header with the slot's name up to the first `>`, and the contents. -/
theorem slot?_eq_some_iff {found : FoundSlot} :
    slot? s = some (found, rest) ↔
      ∃ r after header body, s = '<' :: r ∧ afterName isBlank "slot".toList r = some after ∧
        endsName after = true ∧ splitHeader? after = some (header, body) ∧
        slotName? 't' header = some found.name ∧
        slotContents? body = some (found.contents, rest) := by
  constructor
  · intro h
    unfold slot? at h
    split at h
    · rename_i r
      split at h
      · rename_i after hname
        split at h
        · rename_i hends
          split at h
          · rename_i header body hsplit
            split at h
            · rename_i name hfound
              obtain ⟨⟨contents, r'⟩, hcontents, heq⟩ := Option.map_eq_some_iff.1 h
              cases heq
              exact ⟨r, after, header, body, rfl, hname, hends, hsplit, hfound, hcontents⟩
            · cases h
          · cases h
        · cases h
      · cases h
    · cases h
  · rintro ⟨r, after, header, body, rfl, hname, hends, hsplit, hfound, hcontents⟩
    simp only [slot?, hname, hends, hsplit, hfound, hcontents, if_true, Option.map_some]

theorem slot?_eq_some {found : FoundSlot} (h : slot? s = some (found, rest)) :
    ∃ r after header body, s = '<' :: r ∧ afterName isBlank "slot".toList r = some after ∧
      endsName after = true ∧ after = header ++ '>' :: body ∧
      slotName? 't' header = some found.name ∧
      slotContents? body = some (found.contents, rest) := by
  obtain ⟨r, after, header, body, hs, hname, hends, hsplit, hfound, hcontents⟩ := slot?_eq_some_iff.1 h
  exact ⟨r, after, header, body, hs, hname, hends, (Attribute.closeQuote?_eq_some hsplit).1, hfound,
    hcontents⟩

theorem slot_readsTags : slot.ReadsTags where
  opens := by
    intro c s hc
    show slot? (c :: s) = none
    unfold slot?
    split
    · rename_i heq
      exact absurd (List.cons.inj heq).1 hc
    · rfl
  follows := by
    intro s found rest h
    obtain ⟨r, after, header, body, rfl, hname, -, hafter, -, hcontents⟩ := slot?_eq_some h
    have hbody : body <:+ after := hafter ▸ ⟨header ++ ['>'], by simp⟩
    exact (slotContents?_suffix hcontents).trans (hbody.trans
      ((afterName_suffix hname).trans (List.suffix_cons '<' r)))

theorem startsHead_of_slot? {found : FoundSlot} (h : slot? s = some (found, rest)) :
    StartsHead "slot".toList s := by
  obtain ⟨r, after, header, body, rfl, hname, hends, -, -, -⟩ := slot?_eq_some h
  exact startsHead_of_afterName (fun _ h => h) hname hends

theorem standsIn_of_slot? {found : FoundSlot} (h : slot? s = some (found, rest)) :
    StandsIn found.name s ∧ StandsIn found.contents s := by
  obtain ⟨r, after, header, body, rfl, hname, -, rfl, hfound, hcontents⟩ := slot?_eq_some h
  have hsuffix : header ++ '>' :: body <:+ '<' :: r :=
    (afterName_suffix hname).trans (List.suffix_cons '<' r)
  obtain ⟨closer, rfl, hend⟩ := slotContents?_eq_some hcontents
  constructor
  · have hheader : StandsIn header (header ++ '>' :: (found.contents ++ closer)) :=
      .append_of_ends (by rfl)
    exact ((standsIn_of_slotName? hfound).trans hheader).trans (.of_isSuffix hsuffix)
  · have hbody : StandsIn found.contents (found.contents ++ closer) :=
      .append_of_ends (endsName_of_slotEnd? hend)
    have hbehind : found.contents ++ closer <:+ header ++ '>' :: (found.contents ++ closer) :=
      ⟨header ++ ['>'], by simp⟩
    exact hbody.trans (.of_isSuffix (hbehind.trans hsuffix))

end ComponentTags.Markup

namespace ComponentTags

namespace Pattern

variable {α : Type} {p : Pattern α} {name s : List Char}
  (heads : ∀ t a rest, p.match? t = some (a, rest) → Markup.StartsHead name t)

include heads

/-- A pattern whose occurrences have the head of a name accepts nothing where no such head starts. -/
theorem match?_eq_none_of_heads (h : ¬ Markup.StartsHead name s) : p.match? s = none := by
  cases hmatch : p.match? s with
  | none => rfl
  | some found => exact absurd (heads _ found.1 found.2 hmatch) h

/-- Such a pattern is absent where no such head stands. -/
theorem absent_of_noHead (h : NoHead name s) : p.Absent s := by
  intro t _ hsuffix
  rw [List.append_nil]
  apply match?_eq_none_of_heads heads
  intro hstarts
  obtain ⟨head, hhead, hstands⟩ := hstarts.standsIn
  exact h head hhead (hstands.trans (.of_isSuffix hsuffix))

end Pattern

end ComponentTags
