import ComponentTags.Proofs.DirectiveText
import ComponentTags.Proofs.Document

/-!
# Lines without the end of an element

A quote in an opening tag may hide its `>`, so that an element's end later on the line would be taken for
its own. Where no `/>` follows on the line this cannot happen. Directives in the place of tags leave such
a line as it is: none of them holds a `/>`, and none completes one.
-/

namespace ComponentTags

/-- No `/>` stands in the first line of a text; `slash` says whether a slash stands before it. -/
def clearLine (slash : Bool) : List Char → Bool
  | [] => true
  | c :: s =>
    if c = '\n' then true
    else if slash && c == '>' then false
    else clearLine (c == '/') s

/-- A clear line has a line feed before each `/>` of the text. -/
theorem mem_of_clearLine {slash : Bool} {u v : List Char}
    (h : clearLine slash (u ++ '/' :: '>' :: v) = true) : '\n' ∈ u := by
  induction u generalizing slash with
  | nil => simp [clearLine] at h
  | cons c u ih =>
    rw [List.cons_append, clearLine] at h
    split at h
    · rename_i hc
      simp [hc]
    · split at h
      · cases h
      · exact List.mem_cons_of_mem _ (ih h)

theorem clearLine_mono {slash : Bool} {s : List Char} (h : clearLine slash s = true) :
    clearLine false s = true := by
  cases s with
  | nil => rfl
  | cons c s =>
    rw [clearLine] at h ⊢
    split
    · rfl
    · rename_i hc
      rw [if_neg hc] at h
      split at h
      · cases h
      · simpa using h

/-- A character that is no slash and ends no `/>` in front of a clear line. -/
theorem clearLine_cons {slash : Bool} {c : Char} {s : List Char} (hend : slash = true → c ≠ '>')
    (hslash : c ≠ '/') (h : clearLine false s = true) : clearLine slash (c :: s) = true := by
  have hnone : (c == '/') = false := beq_eq_false_iff_ne.2 hslash
  rw [clearLine, hnone, h]
  split
  · rfl
  · split
    · rename_i hboth
      rw [Bool.and_eq_true, beq_iff_eq] at hboth
      exact absurd hboth.2 (hend hboth.1)
    · rfl

/-- A line that is clear is clear behind a part of it. -/
theorem clearLine_of_append {slash : Bool} {u s : List Char} (hfeed : '\n' ∉ u)
    (h : clearLine slash (u ++ s) = true) : clearLine false s = true := by
  induction u generalizing slash with
  | nil => exact clearLine_mono h
  | cons c u ih =>
    rw [List.mem_cons, not_or] at hfeed
    rw [List.cons_append, clearLine, if_neg (Ne.symm hfeed.1)] at h
    split at h
    · cases h
    · exact ih hfeed.2 h

/-- With `u'` in the place of `u`, lines that were clear stay clear. -/
def Calmer (u u' : List Char) : Prop :=
  ∀ s s', (∀ slash, clearLine slash s = true → clearLine slash s' = true) →
    ∀ slash, clearLine slash (u ++ s) = true → clearLine slash (u' ++ s') = true

namespace Calmer

variable {u u' v v' : List Char}

theorem refl (u : List Char) : Calmer u u := by
  intro s s' hs slash h
  induction u generalizing slash with
  | nil => exact hs slash h
  | cons c u ih =>
    rw [List.cons_append, clearLine] at h ⊢
    split
    · rfl
    · rename_i hc
      rw [if_neg hc] at h
      split
      · rename_i hend
        rw [if_pos hend] at h
        exact h
      · rename_i hend
        rw [if_neg hend] at h
        exact ih _ h

theorem append (first : Calmer u u') (second : Calmer v v') : Calmer (u ++ v) (u' ++ v') := by
  intro s s' hs slash h
  rw [List.append_assoc] at h ⊢
  exact first _ _ (second s s' hs) slash h

/-- A text that starts with neither `>` nor a slash and whose rest leaves a line clear, in the place of one
without line feed. -/
theorem of_cons {c : Char} (hfeed : '\n' ∉ u) (hend : c ≠ '>') (hslash : c ≠ '/')
    (calm : ∀ s, clearLine false s = true → clearLine false (v ++ s) = true) :
    Calmer u (c :: v) := by
  intro s s' hs slash h
  have hrest := calm s' (hs false (clearLine_of_append hfeed h))
  exact clearLine_cons (fun _ => hend) hslash hrest

theorem ite {passed : Prop} [Decidable passed] (h : Calmer u u') :
    Calmer u (if passed then u' else u) := by
  split
  · exact h
  · exact refl u

/-- A fixed text without slashes and `>` in the place of one without line feed. -/
theorem of_literal (hfeed : '\n' ∉ u) (hne : u' ≠ []) (hend : '>' ∉ u') (hslash : '/' ∉ u') :
    Calmer u u' := by
  cases u' with
  | nil => exact absurd rfl hne
  | cons c v =>
    rw [List.mem_cons, not_or] at hend hslash
    refine .of_cons hfeed (Ne.symm hend.1) (Ne.symm hslash.1) fun s hs => ?_
    have hend' := hend.2
    have hslash' := hslash.2
    clear hne hend hslash
    induction v with
    | nil => exact hs
    | cons d v ih =>
      rw [List.mem_cons, not_or] at hend' hslash'
      exact clearLine_cons (fun hfalse => nomatch hfalse) (Ne.symm hslash'.1) (ih hend'.2 hslash'.2)

end Calmer

/-- A part without `>` leaves the line clear, and so does the character behind it. -/
theorem clearLine_part {part s : List Char} {c : Char} (hpart : '>' ∉ part)
    (hslash : c ≠ '/') (hs : clearLine false s = true) (ending : c = '>' → part.getLast? ≠ some '/')
    (slash : Bool) (first : part = [] → slash = true → c ≠ '>') :
    clearLine slash (part ++ c :: s) = true := by
  induction part generalizing slash with
  | nil =>
    exact clearLine_cons (first rfl) hslash hs
  | cons d part ih =>
    rw [List.mem_cons, not_or] at hpart
    rw [List.cons_append, clearLine]
    split
    · rfl
    · have hd : (slash && d == '>') = false := by simp [Ne.symm hpart.1]
      rw [hd, if_neg (by simp)]
      apply ih hpart.2
      · intro hend hlast
        apply ending hend
        rw [List.getLast?_cons, hlast, Option.getD_some]
      · intro hnil hdslash hend
        apply ending hend
        rw [hnil, List.getLast?_singleton, beq_iff_eq.1 hdslash]

/-- A frame around parts without `>` leaves the line clear. -/
theorem Framed.clearLine {part : List Char → Prop} {s u : List Char}
    (hparts : ∀ h, part h → '>' ∉ h) (framed : Framed part s) (hu : clearLine false u = true) :
    clearLine false (s ++ u) = true := by
  induction framed with
  | nil => exact hu
  | @char c s frame _ ih =>
    simp only [isFrameChar, Bool.and_eq_true, bne_iff_ne] at frame
    exact clearLine_cons (fun hfalse => nomatch hfalse) frame.1.2 ih
  | @part h s c filled frame _ ending _ ih =>
    simp only [isFrameChar, Bool.and_eq_true, bne_iff_ne] at frame
    rw [List.append_assoc, List.cons_append]
    exact clearLine_part (hparts h filled) frame.1.2 ih ending false fun _ hfalse => nomatch hfalse

/-- A directive in the place of a tag on one line. -/
theorem Calmer.of_directive {part : List Char → Prop} {u d : List Char} (hfeed : '\n' ∉ u)
    (closed : Sealed d) (framed : Framed part d) (hparts : ∀ h, part h → '>' ∉ h) : Calmer u d := by
  obtain ⟨c, v, rfl, hc⟩ : ∃ c v, d = c :: v ∧ (c = '@' ∨ c = ' ') := by
    obtain ⟨r, hr | hr⟩ := closed.opens
    · exact ⟨_, _, hr, .inl rfl⟩
    · exact ⟨_, _, hr, .inr rfl⟩
  have hother : c ≠ '>' ∧ c ≠ '/' ∧ '\n' ∉ [c] := by rcases hc with rfl | rfl <;> decide
  refine .of_cons hfeed hother.1 hother.2.1 fun s hs => ?_
  have hwhole := framed.clearLine hparts hs
  exact clearLine_of_append (u := [c]) hother.2.2 hwhole

/-! ## Documents -/

/-- Every tag in the second rendering leaves lines clear that it leaves clear in the first one. -/
structure Rendering.Calmer (components : List Component) (r r' : Rendering) : Prop where
  void : ∀ c ∈ components, ∀ attributes,
    ComponentTags.Calmer (r.void c attributes) (r'.void c attributes)
  start : ∀ c ∈ components, ∀ attributes,
    ComponentTags.Calmer (r.start c attributes) (r'.start c attributes)
  finish : ∀ c ∈ components, ComponentTags.Calmer (r.finish c) (r'.finish c)
  slotStart : ∀ name, ComponentTags.Calmer (r.slotStart name) (r'.slotStart name)
  slotFinish : ComponentTags.Calmer r.slotFinish r'.slotFinish

namespace Document

variable {components : List Component} {r r' : Rendering} {doc : Document} {w w' : List Char}

/-- Between the `<` of a paired element and the end of its line stands no `/>`, unless its attributes have
no values. The text `w` follows the document. -/
def StartsClear (r : Rendering) : Document → List Char → Prop
  | nil, _ => True
  | text _ _ rest, w => rest.StartsClear r w
  | void _ _ rest, w => rest.StartsClear r w
  | paired c attributes _ inner rest, w =>
    (TagAttribute.Bare attributes ∨
      clearLine false (r.start c attributes ++ (inner.render r ++ (r.finish c ++ (rest.render r ++ w)))) =
        true) ∧
      inner.StartsClear r (r.finish c ++ (rest.render r ++ w)) ∧ rest.StartsClear r w
  | slot _ _ inner rest, w =>
    inner.StartsClear r (r.slotFinish ++ (rest.render r ++ w)) ∧ rest.StartsClear r w

theorem calmer_render (calmer : Rendering.Calmer components r r') (formed : doc.WellFormed components) :
    Calmer (doc.render r) (doc.render r') := by
  induction doc with
  | nil => exact .refl []
  | text s tagless rest ih => exact (Calmer.refl s).append (ih formed)
  | void c attributes rest ih => exact (calmer.void c formed.1 attributes).append (ih formed.2)
  | paired c attributes ending inner rest ihInner ihRest =>
    exact (calmer.start c formed.1 attributes).append ((ihInner formed.2.1).append
      ((calmer.finish c formed.1).append (ihRest formed.2.2)))
  | slot name plain inner rest ihInner ihRest =>
    exact (calmer.slotStart name).append ((ihInner formed.2.1).append
      (calmer.slotFinish.append (ihRest formed.2.2)))

/-- A document whose paired elements start clear in one rendering has them so in a calmer one. -/
theorem StartsClear.of_calmer (calmer : Rendering.Calmer components r r')
    (formed : doc.WellFormed components)
    (follow : ∀ slash, clearLine slash w = true → clearLine slash w' = true)
    (clear : doc.StartsClear r w) : doc.StartsClear r' w' := by
  induction doc generalizing w w' with
  | nil => exact trivial
  | text s tagless rest ih => exact ih formed follow clear
  | void c attributes rest ih => exact ih formed.2 follow clear
  | paired c attributes ending inner rest ihInner ihRest =>
    obtain ⟨hstart, hinner, hrest⟩ := clear
    have behind := calmer.finish c formed.1 _ _ (calmer_render calmer formed.2.2 _ _ follow)
    refine ⟨hstart.imp_right fun h => ?_, ihInner formed.2.1 behind hinner, ihRest formed.2.2 follow hrest⟩
    exact calmer.start c formed.1 attributes _ _ (calmer_render calmer formed.2.1 _ _ behind) false h
  | slot name plain inner rest ihInner ihRest =>
    obtain ⟨hinner, hrest⟩ := clear
    have behind := calmer.slotFinish _ _ (calmer_render calmer formed.2.2 _ _ follow)
    exact ⟨ihInner formed.2.1 behind hinner, ihRest formed.2.2 follow hrest⟩

end Document

end ComponentTags
