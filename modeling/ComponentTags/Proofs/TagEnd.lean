import ComponentTags.Proofs.LastOccurrence
import ComponentTags.Proofs.SlotReading
import ComponentTags.Proofs.TagBoundary

/-!
# The ends of tags

Every tag ends in `>`, and no opening tag in the `->` of a call. A closing tag reaches no further than to the
first `>`, so a text that ends in `>` is read on its own; and what closing tags take of a text that goes on
does not depend on what stands behind, only on where the next `>` is.
-/

namespace ComponentTags.Markup

open Text (isBlank isInlineBlank)

variable {name s u rest : List Char}

/-! ## Opening tags -/

theorem tagAttribute?_ne_nil {item : List Char} (h : tagAttribute? s = some (item, rest)) : item ≠ [] := by
  unfold tagAttribute? at h
  split at h
  · cases h
  · rename_i hname
    split at h
    · split at h
      · cases h
        simp
      · cases h
        exact hname
    · cases h
      exact hname

/-- The end of an opening tag does not follow a hyphen. -/
theorem openingRest?_getLastD {last : Char} {text : List Char}
    (h : openingRest? last s = some (text, rest)) : text.getLastD last ≠ '-' := by
  fun_induction openingRest? last s generalizing text with
  | case1 => cases h
  | case2 last s hmay =>
    cases h
    rintro rfl
    exact absurd hmay (by decide)
  | case3 => cases h
  | case4 last c s _ _ item rest' hitem ih =>
    obtain ⟨⟨inner, r⟩, hr, heq⟩ := Option.map_eq_some_iff.1 h
    cases heq
    have hlast := ih hr
    obtain ⟨d, hd⟩ := Option.ne_none_iff_exists'.1
      (mt List.getLast?_eq_none_iff.1 (tagAttribute?_ne_nil hitem))
    rw [List.getLastD_eq_getLast?, List.getLastD_eq_getLast?, hd] at hlast
    rw [List.getLastD_eq_getLast?, List.getLast?_append, List.getLast?_append, hd]
    cases hinner : inner.getLast? with
    | none => simpa [hinner] using hlast
    | some e => simpa [hinner] using hlast
  | case5 last c s _ hblank _ r hr =>
    cases h
    have hall : ∀ d ∈ c :: s.takeWhile isBlank, isBlank d = true := by
      intro d hd
      rcases List.mem_cons.1 hd with rfl | hd
      · exact hblank
      · exact List.all_eq_true.1 List.all_takeWhile d hd
    have hmem : (c :: s.takeWhile isBlank).getLastD last ∈ c :: s.takeWhile isBlank := by
      rw [List.getLastD_cons]
      exact List.getLastD_mem_cons
    intro hlast
    rw [hlast] at hmem
    exact absurd (hall _ hmem) (by decide)
  | case6 => cases h
  | case7 => cases h

/-- In front of the `>` of an opening tag stands no hyphen. -/
theorem opening?_eq_append {text : List Char} (hname : name ≠ []) (h : opening? name s = some (text, rest)) :
    ∃ front, s = '<' :: front ++ '>' :: rest ∧ ('<' :: front).getLast? ≠ some '-' := by
  obtain ⟨r, after, rfl, hafter, hrest⟩ := opening?_eq_some h
  obtain ⟨gap, rfl, -⟩ := eq_append_of_afterName hafter
  refine ⟨gap ++ name ++ text, by rw [openingRest?_append hrest]; simp, ?_⟩
  have hlast := openingRest?_getLastD hrest
  have hend : name.getLast? = some (name.getLast hname) := List.getLast?_eq_some_getLast hname
  rw [List.getLastD_eq_getLast?, List.getLastD_eq_getLast?, hend] at hlast
  rw [List.getLast?_cons, List.getLast?_append, List.getLast?_append, hend]
  cases htext : text.getLast? with
  | none => simpa [htext] using hlast
  | some c => simpa [htext] using hlast

theorem opening_endsTags (hname : name ≠ []) : (opening name).EndsTags := by
  intro s text rest h
  obtain ⟨front, rfl, -⟩ := opening?_eq_append hname h
  exact List.suffix_append _ _

/-- An opening tag does not end with the last call of a text. So it ends behind the call, or the call is still
to come. -/
theorem exists_call_behind {front w text : List Char} (hname : name ≠ [])
    (hsplit : front ++ '-' :: '>' :: w = u ++ s) (h : opening? name s = some (text, rest))
    (hend : ¬ '>' :: rest <:+ w) :
    ∃ inner between, s = '<' :: inner ++ '>' :: rest ∧ rest = between ++ '>' :: w ∧
      front ++ ['-', '>'] = u ++ '<' :: (inner ++ '>' :: (between ++ ['>'])) := by
  obtain ⟨inner, rfl, hlast⟩ := opening?_eq_append hname h
  have hwhole : (front ++ ['-']) ++ '>' :: w = (u ++ '<' :: inner) ++ '>' :: rest := by simpa using hsplit
  have apart : front ++ ['-'] ≠ u ++ '<' :: inner := by
    intro heq
    have hsame := congrArg List.getLast? heq
    rw [List.getLast?_concat, List.getLast?_append_of_ne_nil _ (List.cons_ne_nil _ _)] at hsame
    exact hlast hsame.symm
  rcases List.append_eq_append_iff.1 hwhole with ⟨more, hmore, hrest⟩ | ⟨more, hmore, hrest⟩
  · match more with
    | [] => exact absurd (by rw [hmore, List.append_nil]) apart
    | c :: more => exact absurd ⟨more, (List.cons.inj hrest).2.symm⟩ hend
  · match more with
    | [] => exact absurd (by rw [hmore, List.append_nil]) apart
    | c :: more =>
      obtain ⟨rfl, rfl⟩ := List.cons.inj hrest
      refine ⟨inner, more, rfl, rfl, ?_⟩
      have hfront : front ++ ['-', '>'] = (front ++ ['-']) ++ ['>'] := by simp
      rw [hfront, hmore]
      simp

/-! ## Self-closing elements and slots -/

theorem selfClosing_endsTags (name : List Char) : (selfClosing name).EndsTags := by
  intro s text rest h
  obtain ⟨r, after, rfl, hname, -, hread⟩ := selfClosing?_eq_some h
  obtain ⟨gap, hline, -, -⟩ := (readLine_runsToEnd _).1 hread
  have hsuffix : '>' :: rest <:+ after.dropWhile isInlineBlank :=
    ⟨text ++ gap ++ ['/'], by rw [hline]; simp⟩
  exact hsuffix.trans ((List.dropWhile_suffix _).trans
    ((afterName_suffix hname).trans (List.suffix_cons '<' r)))

theorem slot_endsTags : slot.EndsTags := by
  intro s found rest h
  obtain ⟨r, after, header, body, rfl, hname, -, rfl, -, hcontents⟩ := slot?_eq_some h
  obtain ⟨closer, rfl, hend⟩ := slotContents?_eq_some hcontents
  obtain ⟨gap, middle, last, rfl, -, -, -⟩ := slotEnd?_eq_some hend
  have hsuffix : '>' :: rest <:+ header ++ '>' :: (found.contents ++
      '<' :: (gap ++ '/' :: (middle ++ "slot".toList ++ (last ++ '>' :: rest)))) :=
    ⟨header ++ '>' :: (found.contents ++ '<' :: (gap ++ '/' :: (middle ++ "slot".toList ++ last))), by simp⟩
  exact hsuffix.trans ((afterName_suffix hname).trans (List.suffix_cons '<' r))

/-! ## Closing tags -/

theorem afterTagEnd?_append_of_not_mem (h : '>' ∉ s) (w : List Char) :
    afterTagEnd? (s ++ w) = afterTagEnd? w := by
  have hall : ∀ c ∈ s, (c != '>') = true := by
    intro c hc
    rw [bne_iff_ne]
    rintro rfl
    exact h hc
  rw [afterTagEnd?, afterTagEnd?, List.dropWhile_append_of_pos hall]

theorem afterTagEnd?_eq_some_iff :
    afterTagEnd? s = some rest ↔ ∃ front, s = front ++ '>' :: rest ∧ '>' ∉ front := by
  constructor
  · intro h
    unfold afterTagEnd? at h
    split at h
    · rename_i c r hcut
      cases h
      have hc := List.head_dropWhile_not (p := (· != '>')) (l := s) (by simp [hcut])
      simp only [hcut, List.head_cons, bne_eq_false_iff_eq] at hc
      subst hc
      refine ⟨s.takeWhile (· != '>'), ?_, ?_⟩
      · rw [← hcut, List.takeWhile_append_dropWhile]
      · intro hmem
        exact absurd (List.all_eq_true.1 List.all_takeWhile _ hmem) (by decide)
    · cases h
  · rintro ⟨front, rfl, hfront⟩
    rw [afterTagEnd?_append_of_not_mem hfront]
    rfl

theorem afterTagEnd?_append (h : '>' ∈ s) (w : List Char) :
    afterTagEnd? (s ++ w) = (afterTagEnd? s).map (· ++ w) := by
  obtain ⟨front, back, rfl, hfront⟩ := List.eq_append_cons_of_mem h
  have hshort : afterTagEnd? (front ++ '>' :: back) = some back :=
    afterTagEnd?_eq_some_iff.2 ⟨front, rfl, hfront⟩
  have hlong : afterTagEnd? (front ++ '>' :: back ++ w) = some (back ++ w) :=
    afterTagEnd?_eq_some_iff.2 ⟨front, by simp, hfront⟩
  rw [hshort, hlong, Option.map_some]

theorem closing_endsTags (name : List Char) : (closing name).EndsTags := by
  intro s found rest h
  obtain ⟨r, after, rfl, hname, -, hend⟩ := closing?_eq_some h
  obtain ⟨front, hafter, -⟩ := afterTagEnd?_eq_some_iff.1 hend
  have hsuffix : '>' :: rest <:+ after := ⟨front, hafter.symm⟩
  exact hsuffix.trans ((afterName_suffix hname).trans
    ((List.suffix_cons '/' r).trans (List.suffix_cons '<' _)))

theorem closing?_of_not_opens (h : ∀ r, s ≠ '<' :: '/' :: r) : closing? name s = none := by
  unfold closing?
  split
  · exact absurd rfl (h _)
  · rfl

/-- Where an opening tag stands, no closing one does, whatever follows the tag. -/
theorem closing?_of_opening? {inner v w text : List Char} (hname : IsElementName name)
    (h : opening? name ('<' :: inner ++ '>' :: v) = some (text, rest)) :
    closing? name ('<' :: (inner ++ '>' :: w)) = none := by
  apply closing?_of_not_opens
  intro r heq
  cases inner with
  | nil => cases heq
  | cons c inner =>
    have hc : c = '/' := (List.cons.inj (List.cons.inj heq).2).1
    rw [hc, List.cons_append, List.cons_append, opening?_of_slash hname] at h
    cases h

/-- A closing tag reaches no further than to the first `>`. -/
theorem closing?_append (hname : IsElementName name) (h : '>' ∈ s) (w : List Char) :
    closing? name (s ++ w) = (closing? name s).map fun found => (found.1, found.2 ++ w) := by
  by_cases hopens : ∃ r, s = '<' :: '/' :: r
  · obtain ⟨r, rfl⟩ := hopens
    obtain ⟨front, back, rfl⟩ : ∃ front back, r = front ++ '>' :: back :=
      List.append_of_mem (by simpa using h)
    have found (u : List Char) : afterName isBlank name (front ++ '>' :: u) =
        (afterName isBlank name front).map (· ++ '>' :: u) :=
      afterName_append (by decide) hname.ne_nil (hname.not_mem (by decide) (by decide))
    simp only [closing?, List.cons_append, List.append_assoc, found]
    cases afterName isBlank name front with
    | none => rfl
    | some after =>
      have hends (u : List Char) : endsName (after ++ '>' :: u) = endsName (after ++ ['>']) := by
        cases after <;> rfl
      have hafter := afterTagEnd?_append (s := after ++ '>' :: back) (by simp) w
      rw [List.append_assoc, List.cons_append] at hafter
      simp only [Option.map_some, hends back, hends (back ++ w), hafter]
      split
      · cases afterTagEnd? (after ++ '>' :: back) <;> rfl
      · rfl
  · have hnone : closing? name s = none := closing?_of_not_opens fun r heq => hopens ⟨r, heq⟩
    rw [hnone]
    apply closing?_of_not_opens
    intro r heq
    match s with
    | [] => cases h
    | [c] =>
      have hend : c = '>' := (List.mem_singleton.1 h).symm
      rw [hend] at heq
      cases heq
    | c :: d :: s =>
      simp only [List.cons_append, List.cons.injEq] at heq
      exact hopens ⟨s, by rw [heq.1, heq.2.1]⟩

/-- Behind a `>` that no tag follows, closing tags are replaced on their own. -/
theorem closing_replace_append {f : Unit → List Char} (hname : IsElementName name)
    (hback : '<' ∉ u) (w : List Char) :
    (closing name).replace f (s ++ '>' :: u ++ w) =
        (closing name).replace f (s ++ '>' :: u) ++ (closing name).replace f w ∧
      (closing name).count (s ++ '>' :: u ++ w) =
        (closing name).count (s ++ '>' :: u) + (closing name).count w := by
  have tags := closing_readsTags name
  have cut (v : List Char) : (closing name).replace f (s ++ ['>'] ++ v) =
        (closing name).replace f (s ++ ['>']) ++ (closing name).replace f v ∧
      (closing name).count (s ++ ['>'] ++ v) =
        (closing name).count (s ++ ['>']) + (closing name).count v := by
    apply Pattern.replace_append_of_match tags
    rintro t ht ⟨before, hbefore⟩
    have hlast : (before ++ t).getLast? = some '>' := by rw [hbefore]; simp
    rw [List.getLast?_append_of_ne_nil _ ht] at hlast
    exact closing?_append hname (List.mem_of_getLast? hlast) v
  have hsplit (v : List Char) : s ++ '>' :: u ++ v = s ++ ['>'] ++ (u ++ v) := by simp
  have hwhole := hsplit []
  rw [List.append_nil, List.append_nil] at hwhole
  have hskips : Skips (closing name).match? u w := Skips.of_not_mem tags.opens hback
  have habsent := Pattern.absent_of_not_mem tags hback
  rw [hsplit, hwhole, (cut (u ++ w)).1, (cut (u ++ w)).2, (cut u).1, (cut u).2,
    Pattern.replace_append hskips, Pattern.count_append hskips, Pattern.replace_of_absent habsent,
    Pattern.count_eq_zero_iff.2 habsent, List.append_assoc]
  exact ⟨rfl, rfl⟩

/-- A closing tag without its end is ended by the first `>` of the text behind, if its name is complete. -/
theorem closing?_endless_append (hname : IsElementName name) (hne : s ≠ []) (endless : '>' ∉ s) {c : Char}
    (hc : c = '@' ∨ c = '<') (w : List Char) :
    closing? name (s ++ c :: w) =
      (closing? name (s ++ ['>'])).bind fun _ => (afterTagEnd? w).map fun rest => ((), rest) := by
  by_cases hopens : ∃ r, s = '<' :: '/' :: r
  · obtain ⟨r, rfl⟩ := hopens
    have found (d : Char) (u : List Char) (hd : isBlank d = false) (htag : isTagChar d = false)
        (hfeed : d ≠ '\n') :
        afterName isBlank name (r ++ d :: u) = (afterName isBlank name r).map (· ++ d :: u) :=
      afterName_append hd hname.ne_nil (hname.not_mem htag hfeed)
    have hbehind : afterName isBlank name (r ++ c :: w) = (afterName isBlank name r).map (· ++ c :: w) := by
      rcases hc with rfl | rfl
      · exact found '@' w (by decide) (by decide) (by decide)
      · exact found '<' w (by decide) (by decide) (by decide)
    simp only [closing?, List.cons_append, hbehind, found '>' [] (by decide) (by decide) (by decide)]
    cases hafter : afterName isBlank name r with
    | none => rfl
    | some after =>
      have hrest : '>' ∉ after := by
        intro hmem
        have hr := (afterName_suffix hafter).subset hmem
        simp [hr] at endless
      have hends : endsName (after ++ c :: w) = endsName (after ++ ['>']) := by
        cases after with
        | nil => rcases hc with rfl | rfl <;> rfl
        | cons d after => rfl
      have hone : '>' ∉ [c] := by rcases hc with rfl | rfl <;> decide
      have hlater : afterTagEnd? (c :: w) = afterTagEnd? w := afterTagEnd?_append_of_not_mem hone w
      simp only [Option.map_some, hends, afterTagEnd?_append_of_not_mem hrest, hlater]
      split
      · rfl
      · rfl
  · have hnone (d : Char) (u : List Char) (hd : d ≠ '/') : closing? name (s ++ d :: u) = none := by
      apply closing?_of_not_opens
      intro r heq
      match s with
      | [] => exact hne rfl
      | [b] => exact hd (List.cons.inj (List.cons.inj heq).2).1
      | b :: e :: s =>
        simp only [List.cons_append, List.cons.injEq] at heq
        exact hopens ⟨s, by rw [heq.1, heq.2.1]⟩
    have hother : c ≠ '/' := by rcases hc with rfl | rfl <;> decide
    rw [hnone c w hother, hnone '>' [] (by decide)]
    rfl

/-- Closing tags end in the text as if no other one stood behind it. -/
def ClosesApart (name s : List Char) (f : Unit → List Char) : Prop :=
  ∀ c w, c = '@' ∨ c = '<' → (closing name).replace f (s ++ c :: w) =
    (closing name).replace f s ++ (closing name).replace f (c :: w)

/-- The last closing tag of the text goes on to the first `>` behind it. -/
def ClosesBehind (name s : List Char) (f : Unit → List Char) : Prop :=
  ∃ front, ∀ c w rest, c = '@' ∨ c = '<' → afterTagEnd? w = some rest →
    (closing name).replace f (s ++ c :: w) = front ++ (closing name).replace f rest

/-- Which of the two it is does not depend on what stands behind. -/
theorem closesApart_or_closesBehind (hname : IsElementName name) (f : Unit → List Char) (s : List Char) :
    ClosesApart name s f ∨ ClosesBehind name s f := by
  induction s using Pattern.reading_induction (closing name) with
  | nil => exact .inl fun c w _ => by simp
  | found s found rest h ih =>
    have hs := closing_endsTags name s found rest h
    have step (v : List Char) : (closing name).replace f (s ++ v) =
        f () ++ (closing name).replace f (rest ++ v) := by
      have hmatch : closing? name (s ++ v) = some (found, rest ++ v) := by
        have happend := closing?_append hname (hs.subset List.mem_cons_self) v
        rwa [show closing? name s = some (found, rest) from h] at happend
      exact Pattern.replace_of_match (p := closing name) hmatch
    rcases ih with apart | ⟨front, behind⟩
    · refine .inl fun c w hc => ?_
      rw [step, apart c w hc, Pattern.replace_of_match h, List.append_assoc]
    · refine .inr ⟨f () ++ front, fun c w r hc hr => ?_⟩
      rw [step, behind c w r hc hr, List.append_assoc]
  | skip b s h ih =>
    have hcases : (∀ c w, c = '@' ∨ c = '<' → closing? name (b :: s ++ c :: w) = none) ∨
        '>' ∉ b :: s ∧ ∃ found, closing? name (b :: s ++ ['>']) = some found := by
      by_cases hmem : '>' ∈ b :: s
      · refine .inl fun c w _ => ?_
        rw [closing?_append hname hmem, show closing? name (b :: s) = none from h]
        rfl
      · cases hends : closing? name (b :: s ++ ['>']) with
        | some found => exact .inr ⟨hmem, found, rfl⟩
        | none =>
          refine .inl fun c w hc => ?_
          rw [closing?_endless_append hname (List.cons_ne_nil b s) hmem hc, hends]
          rfl
    rcases hcases with hnone | ⟨hmem, found, hends⟩
    · have step (c : Char) (w : List Char) (hc : c = '@' ∨ c = '<') :
          (closing name).replace f (b :: s ++ c :: w) = b :: (closing name).replace f (s ++ c :: w) :=
        Pattern.replace_cons_of_none (p := closing name) (hnone c w hc)
      rcases ih with apart | ⟨front, behind⟩
      · refine .inl fun c w hc => ?_
        rw [step c w hc, apart c w hc, Pattern.replace_cons_of_none h]
        rfl
      · refine .inr ⟨b :: front, fun c w r hc hr => ?_⟩
        rw [step c w hc, behind c w r hc hr]
        rfl
    · refine .inr ⟨f (), fun c w r hc hr => ?_⟩
      have hmatch := closing?_endless_append hname (List.cons_ne_nil b s) hmem hc w
      rw [hends, hr] at hmatch
      exact Pattern.replace_of_match (p := closing name) hmatch

/-- A text with its own beginning in front once more does not become shorter than it was: what closing tags
take of it in the one case, they take in the other. -/
theorem closing_replace_append_ne (hname : IsElementName name) (f : Unit → List Char)
    {u z h w : List Char} (hu : '@' :: h = u ++ '<' :: z) (hz : closing? name ('<' :: z) = none)
    (hend : '>' ∈ z) (hw : w ≠ []) :
    (closing name).replace f (u ++ '@' :: h) ++ w ≠ (closing name).replace f ('@' :: h) := by
  intro heq
  replace heq := heq.trans (congrArg ((closing name).replace f) hu)
  rcases closesApart_or_closesBehind hname f u with apart | ⟨front, behind⟩
  · have hat : (closing name).match? ('@' :: h) = none := (closing_readsTags name).opens '@' h (by decide)
    rw [apart '@' h (.inl rfl), apart '<' z (.inr rfl), List.append_assoc,
      Pattern.replace_cons_of_none hat, Pattern.replace_cons_of_none (p := closing name) hz] at heq
    cases List.append_cancel_left heq
  · obtain ⟨inner, rest, rfl, hinner⟩ := List.eq_append_cons_of_mem hend
    obtain ⟨first, later, rfl, hfirst⟩ : ∃ first later, h = first ++ '>' :: later ∧ '>' ∉ first := by
      apply List.eq_append_cons_of_mem
      have hmem : '>' ∈ '@' :: h := by simp [hu]
      exact (List.mem_cons.1 hmem).resolve_left (by decide)
    -- what follows the first `>` of a text ends in what follows any other
    have hsuffix : later = rest ∨ ∃ more, later = more ++ '>' :: rest := by
      have hwhole : ('@' :: first) ++ '>' :: later = (u ++ '<' :: inner) ++ '>' :: rest := by simpa using hu
      rcases List.append_eq_append_iff.1 hwhole with ⟨more, -, hmore⟩ | ⟨more, hmore, hrest⟩
      · match more with
        | [] => exact .inl (List.cons.inj hmore).2
        | c :: more => exact .inr ⟨more, (List.cons.inj hmore).2⟩
      · match more with
        | [] => exact .inl (List.cons.inj hrest).2.symm
        | c :: more =>
          have hc : '>' = c := (List.cons.inj hrest).1
          have hmem : '>' ∈ '@' :: first := by simp [hmore, ← hc]
          exact absurd ((List.mem_cons.1 hmem).resolve_left (by decide)) hfirst
    rw [behind '@' _ later (.inl rfl) (afterTagEnd?_eq_some_iff.2 ⟨first, rfl, hfirst⟩),
      behind '<' _ rest (.inr rfl) (afterTagEnd?_eq_some_iff.2 ⟨inner, rfl, hinner⟩),
      List.append_assoc] at heq
    have hlength := congrArg List.length (List.append_cancel_left heq)
    rw [List.length_append] at hlength
    have hpos := List.length_pos_iff.2 hw
    have hle : ((closing name).replace f rest).length ≤ ((closing name).replace f later).length := by
      rcases hsuffix with rfl | ⟨more, rfl⟩
      · exact Nat.le_refl _
      · have hcut := (closing_replace_append (u := []) (s := more) (f := f) hname List.not_mem_nil rest).1
        rw [List.append_assoc] at hcut
        rw [show more ++ '>' :: rest = more ++ ('>' :: [] ++ rest) from rfl, hcut, List.length_append]
        exact Nat.le_add_left _ _
    omega

end ComponentTags.Markup
