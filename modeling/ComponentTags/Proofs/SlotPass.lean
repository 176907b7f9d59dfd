import ComponentTags.Proofs.DirectiveText
import ComponentTags.Proofs.LastOccurrence
import ComponentTags.Proofs.SlotRegion
import Mathlib.Data.List.Infix

/-!
# The slot pass run again

The slot pass rewrites regions and keeps everything else. A beginning of a slot that it kept has no name in its
header or no closing slot tag behind it: if a region followed, the beginning would have reached the region's
closing tag, with its own header or, where no `>` stands in between, with the region's one. Rewriting the
regions behind it takes away only what it could not use, so it is kept again. Therefore a second run finds
slots only within what the first one wrote: in the names and the contents of regions that hold a beginning.
-/

namespace ComponentTags

namespace Markup

variable {s u w rest : List Char} {c : Char} {f : FoundSlot → List Char}

/-- What stands in front of a character that it does not hold is in front of it as a whole. -/
theorem prefix_of_append_cons {part : List Char} (hc : c ∉ part) (h : part <+: u ++ c :: w) : part <+: u := by
  obtain ⟨v, heq⟩ := h
  rcases List.append_eq_append_iff.1 heq with ⟨more, hu, -⟩ | ⟨more, hpart, hw⟩
  · exact ⟨more, hu.symm⟩
  · cases more with
    | nil => exact ⟨[], by rw [hpart]; simp⟩
    | cons d more =>
      have hd : c = d := (List.cons.inj hw).1
      exact absurd (by simp [hpart, hd]) hc

theorem SlotRegion.startsWith_mark (r : SlotRegion) (rest : List Char) : r.mark <+: r.region ++ rest :=
  ⟨r.inner ++ ['>'] ++ (r.contents ++ r.closer) ++ rest, by simp [region, SlotHeader.text]⟩

/-! ## Within what was written -/

/-- No further slot begins behind the first character of a region. -/
def IsFlat (region : List Char) : Prop :=
  ∀ mark, IsSlotMark mark → ¬ mark <:+: region.tail

/-- A beginning of a slot stands at the start of the text. -/
def startsMark : List Char → Bool
  | '<' :: s => "slot".toList.isPrefixOf (s.dropWhile Text.isBlank)
  | _ => false

theorem startsMark_iff : startsMark s = true ↔ ∃ mark, IsSlotMark mark ∧ mark <+: s := by
  constructor
  · intro h
    unfold startsMark at h
    split at h
    · rename_i s
      obtain ⟨rest, hrest⟩ := List.isPrefixOf_iff_prefix.1 h
      refine ⟨_, ⟨s.takeWhile Text.isBlank, List.all_takeWhile, rfl⟩, rest, ?_⟩
      rw [List.cons_append, List.append_assoc, hrest, List.takeWhile_append_dropWhile]
    · cases h
  · rintro ⟨mark, ⟨gap, hgap, rfl⟩, rest, rfl⟩
    have hname : (gap ++ "slot".toList ++ rest).dropWhile Text.isBlank = "slot".toList ++ rest := by
      rw [List.append_assoc]
      exact dropWhile_append_cons_of_all (s := "lot".toList ++ rest) (c := 's') hgap (by decide)
    rw [List.cons_append, startsMark, hname]
    exact List.isPrefixOf_iff_prefix.2 (List.prefix_append _ _)

theorem isFlat_iff {region : List Char} :
    IsFlat region ↔ ∀ t ∈ region.tail.tails, startsMark t = false := by
  simp only [IsFlat, List.infix_iff_prefix_suffix, List.mem_tails, Bool.eq_false_iff, ne_eq, startsMark_iff]
  constructor
  · rintro h t ht ⟨mark, hmark, hstart⟩
    exact h mark hmark ⟨t, hstart, ht⟩
  · rintro h mark hmark ⟨t, hstart, ht⟩
    exact h t ht ⟨mark, hmark, hstart⟩

instance (region : List Char) : Decidable (IsFlat region) :=
  decidable_of_iff _ isFlat_iff.symm

/-- No slot is found in a text without a beginning, if what follows continues none. -/
theorem skips_of_unmarked (hc : c ∉ '<' :: "slot".toList) (hblank : Text.isBlank c = false)
    (h : ∀ mark, IsSlotMark mark → ¬ mark <:+: u) : Skips slot? u (c :: w) := by
  intro t _ hsuffix
  cases hslot : slot? (t ++ c :: w) with
  | none => rfl
  | some found =>
    obtain ⟨r, heq, -⟩ := exists_region_of_slot? hslot
    have hstart : r.mark <+: t ++ c :: w := heq ▸ r.startsWith_mark found.2
    have hmark := prefix_of_append_cons (r.isMark.not_mem hc hblank) hstart
    exact absurd (hmark.isInfix.trans hsuffix.isInfix) (h r.mark r.isMark)

/-- No slot is found in the directive of a flat region. -/
theorem SlotRegion.skips_directive (r : SlotRegion) (flat : IsFlat r.region) (w : List Char) :
    Skips slot? (Directive.slot r.name r.contents) w := by
  obtain ⟨gap, -, hmark⟩ := r.isMark
  have htail : r.region.tail = gap ++ "slot".toList ++ r.inner ++ ['>'] ++ r.contents ++ r.closer := by
    simp [region, SlotHeader.text, hmark]
  have hname : r.name <:+: r.region.tail := by
    rw [htail]
    exact ⟨gap ++ "slot".toList ++ r.front ++ "name=".toList ++ [r.quote],
      r.quote :: r.back ++ ['>'] ++ r.contents ++ r.closer, by simp [SlotHeader.inner]⟩
  have hcontents : r.contents <:+: r.region.tail := by
    rw [htail]
    exact ⟨gap ++ "slot".toList ++ r.inner ++ ['>'], r.closer, by simp⟩
  have inName (x : List Char) : Skips slot? r.name ('\'' :: x) :=
    skips_of_unmarked (by decide) (by decide) fun mark hm hin => flat mark hm (hin.trans hname)
  have inContents (x : List Char) : Skips slot? r.contents ('@' :: x) :=
    skips_of_unmarked (by decide) (by decide) fun mark hm hin => flat mark hm (hin.trans hcontents)
  have plain {v x : List Char} (hv : '<' ∉ v) : Skips slot? v x := .of_not_mem slot_readsTags.opens hv
  have hquote (x : List Char) : slot? ('\'' :: x) = none := slot_readsTags.opens '\'' x (by decide)
  rw [Directive.slot_eq]
  exact Skips.append_iff.2 ⟨plain (by decide), Skips.append_iff.2 ⟨inName _,
    Skips.cons_iff.2 ⟨hquote _, Skips.append_iff.2 ⟨plain (by decide),
      Skips.append_iff.2 ⟨inContents _, plain (by decide)⟩⟩⟩⟩⟩

/-! ## Beginnings that are kept -/

/-- A beginning in front of a header, with no `>` in between, reaches the header's end. -/
def SlotHeader.widen (h : SlotHeader) {mark between : List Char} (isMark : IsSlotMark mark)
    (ends : endsName between = true) (unended : '>' ∉ between) : SlotHeader where
  mark := mark
  front := between ++ (h.mark ++ h.front)
  quote := h.quote
  name := h.name
  back := h.back
  isMark := isMark
  ends := by
    obtain ⟨gap, -, hmark⟩ := h.isMark
    cases between with
    | nil => rw [hmark]; rfl
    | cons c between => exact ends
  apart := by
    rw [← List.append_assoc, List.getLast?_append_of_ne_nil _ h.front_ne_nil]
    exact h.apart
  isQuote := h.isQuote
  unquoted := h.unquoted
  unended := by
    have hmark := h.not_mem_mark
    have hrest := h.unended
    simp only [List.mem_append, not_or] at hrest
    simp [unended, hmark, hrest]

theorem SlotHeader.text_widen (h : SlotHeader) {mark between : List Char} (isMark : IsSlotMark mark)
    (ends : endsName between = true) (unended : '>' ∉ between) :
    (h.widen isMark ends unended).text = mark ++ (between ++ h.text) := by
  simp [widen, text, inner]

/-- A header that what follows cuts short is a beginning without a `>` behind it. -/
theorem SlotHeader.exists_of_cut (h : SlotHeader) (hc : c ∉ '<' :: "slot".toList)
    (hblank : Text.isBlank c = false) (heq : h.text = u ++ c :: w) :
    ∃ between, u = h.mark ++ between ∧ endsName between = true ∧ '>' ∉ between := by
  have hstart : h.mark <+: u ++ c :: w := heq ▸ ⟨h.inner ++ ['>'], rfl⟩
  obtain ⟨between, rfl⟩ := prefix_of_append_cons (h.isMark.not_mem hc hblank) hstart
  have hinner : between <+: h.inner := by
    rw [text, List.append_assoc, List.append_cancel_left_eq] at heq
    rcases List.append_eq_append_iff.1 heq with ⟨more, hbetween, hmore⟩ | ⟨more, hinner, -⟩
    · -- behind the header's end nothing is left that could be cut
      cases more with
      | nil => exact ⟨[], by rw [hbetween]; simp⟩
      | cons d more => simp at hmore
    · exact ⟨more, hinner.symm⟩
  refine ⟨between, rfl, ?_, fun hmem => h.not_mem_inner (hinner.subset hmem)⟩
  obtain ⟨rest, hrest⟩ := hinner
  have hends := h.ends
  cases between with
  | nil => rfl
  | cons d between =>
    cases hfront : h.front with
    | nil => exact absurd hfront h.front_ne_nil
    | cons e front =>
      rw [hfront] at hends
      rw [inner, hfront] at hrest
      have hd : d = e := (List.cons.inj hrest).1
      rw [hd]
      exact hends

/-- What stands in front of a character of a text with a header in front holds the whole header, or a beginning
without a `>` behind it. -/
theorem SlotHeader.whole_or_cut (h : SlotHeader) (hc : c ∉ '<' :: "slot".toList)
    (hblank : Text.isBlank c = false) {v : List Char} (heq : u ++ c :: w = h.text ++ v) :
    (∃ more, u = h.text ++ more) ∨
      ∃ between, u = h.mark ++ between ∧ endsName between = true ∧ '>' ∉ between := by
  rcases List.append_eq_append_iff.1 heq with ⟨more, htext, hmore⟩ | ⟨more, hu, -⟩
  · cases more with
    | nil => exact .inl ⟨[], by simp [htext]⟩
    | cons d more =>
      obtain ⟨rfl, -⟩ := List.cons.inj hmore
      exact .inr (h.exists_of_cut hc hblank htext)
  · exact .inl ⟨more, hu⟩

/-- A character that no slot starts at is kept again when the regions behind it are rewritten. -/
theorem slot?_cons_replace_eq_none (covers : ∀ found, ∃ r, f found = '@' :: r)
    (h : slot? (c :: s) = none) : slot? (c :: slot.replace f s) = none := by
  by_cases hcount : slot.count s = 0
  · rwa [Pattern.replace_of_absent (Pattern.count_eq_zero_iff.1 hcount)]
  obtain ⟨u, t, a, rest, rfl, hmatch, hreplace⟩ := Pattern.exists_first f hcount
  obtain ⟨q, rfl, -⟩ := exists_region_of_slot? hmatch
  obtain ⟨w, hw⟩ := covers a
  rw [hreplace, hw]
  cases hslot : slot? (c :: (u ++ ('@' :: w ++ slot.replace f rest))) with
  | none => rfl
  | some found =>
    obtain ⟨r, heq, -⟩ := exists_region_of_slot? hslot
    -- the beginning was the one of a slot before, if a header starts with it
    have refuted (h' : SlotHeader) (v : List Char)
        (htext : c :: u ++ q.region = h'.text ++ (v ++ q.closer)) : False := by
      have hsome := h'.slot?_isSome q.isEnd v rest
      have hwhole : c :: (u ++ (q.region ++ rest)) = h'.text ++ (v ++ (q.closer ++ rest)) := by
        have happend := congrArg (· ++ rest) htext
        simpa using happend
      rw [← hwhole, h] at hsome
      cases hsome
    have hcut : c :: u ++ '@' :: (w ++ slot.replace f rest) =
        r.text ++ (r.contents ++ r.closer ++ found.2) := by
      rw [SlotRegion.region, List.append_assoc] at heq
      exact heq
    rcases r.whole_or_cut (by decide) (by decide) hcut with ⟨more, hu⟩ | ⟨between, hu, hends, hend⟩
    · exact (refuted r.toSlotHeader (more ++ (q.text ++ q.contents)) (by simp [hu, SlotRegion.region])).elim
    · refine (refuted (q.widen r.isMark hends hend) q.contents ?_).elim
      rw [q.text_widen, hu]
      simp [SlotRegion.region]

/-- Where the regions are flat, the slot pass leaves no slot. -/
theorem count_replace_slot
    (flat : ∀ source found, Piece.occurrence source found ∈ slot.pieces s → IsFlat source) :
    slot.count (slot.replace (fun found => Directive.slot found.name found.contents) s) = 0 := by
  induction s using Pattern.reading_induction slot with
  | nil => simp
  | found s a rest hmatch ih =>
    obtain ⟨r, rfl, rfl⟩ := exists_region_of_slot? hmatch
    have hpieces := Pattern.pieces_append_of_match hmatch
    rw [hpieces] at flat
    have hskips := r.skips_directive (flat r.region r.found (by simp))
      (slot.replace (fun found => Directive.slot found.name found.contents) rest)
    rw [Pattern.replace_of_match hmatch]
    exact (Pattern.count_append hskips).trans
      (ih fun source found hmem => flat source found (List.mem_cons_of_mem _ hmem))
  | skip c s hnone ih =>
    have hkept := slot?_cons_replace_eq_none
      (f := fun found => Directive.slot found.name found.contents) (fun found => ⟨_, rfl⟩) hnone
    rw [Pattern.pieces_cons_of_none hnone] at flat
    rw [Pattern.replace_cons_of_none hnone]
    exact (Pattern.count_cons_of_none hkept).trans
      (ih fun source found hmem => flat source found (List.mem_cons_of_mem _ hmem))

theorem exists_region_of_mem_pieces {source : List Char} {found : FoundSlot}
    (h : Piece.occurrence source found ∈ slot.pieces s) :
    ∃ r : SlotRegion, source = r.region ∧ found = r.found := by
  induction s using Pattern.reading_induction slot with
  | nil => simp at h
  | found s a rest hmatch ih =>
    obtain ⟨r, rfl, rfl⟩ := exists_region_of_slot? hmatch
    rw [Pattern.pieces_append_of_match hmatch] at h
    rcases List.mem_cons.1 h with heq | h
    · cases heq
      exact ⟨r, rfl, rfl⟩
    · exact ih h
  | skip c s hnone ih =>
    rw [Pattern.pieces_cons_of_none hnone] at h
    rcases List.mem_cons.1 h with heq | h
    · cases heq
    · exact ih h

end Markup

namespace Stage

open Markup

/-- The slot pass cuts a text into regions and what stands between them, and replaces the regions. The header of
a region ends at its first `>`, the name holds neither a `>` nor the quote around it, and the contents hold no
closing slot tag. Where no region holds a further beginning of a slot, a second run changes nothing. -/
theorem run_slot (t : Target) (s : List Char) :
    (Markup.slot.pieces s).flatMap (·.source) = s ∧
    (∀ source found, Piece.occurrence source found ∈ Markup.slot.pieces s →
      ∃ r : SlotRegion, source = r.region ∧ found = r.found ∧ '>' ∉ r.mark ++ r.inner ∧
        '>' ∉ r.name ∧ r.quote ∉ r.name ∧ ∀ e, IsSlotEnd e → ¬ e <:+: r.contents) ∧
    ∃ out count, Stage.slot.run t s = .ok (out, count) ∧
      out = (Markup.slot.pieces s).flatMap
        (·.replaceWith fun found => Directive.slot found.name found.contents) ∧
      count = (Markup.slot.pieces s).countP (·.isOccurrence) ∧
      ((∀ source found, Piece.occurrence source found ∈ Markup.slot.pieces s → IsFlat source) →
        Stage.slot.run t out = .ok (out, 0)) := by
  refine ⟨Pattern.flatMap_source_pieces slot_readsTags s, fun source found hmem => ?_, _, _, rfl, rfl, rfl,
    fun flat => ?_⟩
  · obtain ⟨r, rfl, rfl⟩ := exists_region_of_mem_pieces hmem
    have hname := r.unended
    simp only [List.mem_append, not_or] at hname
    refine ⟨r, rfl, rfl, ?_, hname.1.2, r.unquoted, fun e he => r.not_infix_contents he⟩
    rw [List.mem_append, not_or]
    exact ⟨r.not_mem_mark, r.not_mem_inner⟩
  · have hcount := count_replace_slot flat
    rw [run, Pattern.replace_of_absent (Pattern.count_eq_zero_iff.1 hcount), hcount]

/-- A card whose slots are looked for. -/
def slottedCard : Target := ⟨⟨"card", "card", none⟩, .text "x-", {}⟩

/-- A region with a `<` in it that begins no slot, in front of a beginning without a closing tag. -/
theorem run_slot_of_flat :
    let s := "<slot name='x'>a < b</ slot > <slot name=\"y\">".toList
    let out := "@slot('x')a < b@endslot <slot name=\"y\">".toList
    (∀ source found, Piece.occurrence source found ∈ Markup.slot.pieces s → IsFlat source) ∧
      slot? s = some (⟨['x'], "a < b".toList⟩, " <slot name=\"y\">".toList) ∧
      Stage.slot.run slottedCard s = .ok (out, 1) ∧ Stage.slot.run slottedCard out = .ok (out, 0) := by
  intro s out
  have all : (Markup.slot.pieces s).all fun
      | .char _ => true
      | .occurrence source _ => decide (IsFlat source) := by
    decide +kernel
  have flat : ∀ source found, Piece.occurrence source found ∈ Markup.slot.pieces s → IsFlat source :=
    fun source found hmem => of_decide_eq_true (List.all_eq_true.1 all _ hmem)
  obtain ⟨-, -, out', count, hrun, hout, hcount, again⟩ := run_slot slottedCard s
  have rewritten : out' = out := hout.trans (by decide +kernel)
  have once : count = 1 := hcount.trans (by decide +kernel)
  subst rewritten once
  exact ⟨flat, by decide +kernel, hrun, again flat⟩

end Stage

end ComponentTags
