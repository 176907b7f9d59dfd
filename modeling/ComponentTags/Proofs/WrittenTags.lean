import ComponentTags.Proofs.AttributeList
import ComponentTags.Proofs.LineClear
import ComponentTags.Proofs.TagBoundary

/-!
# The tags of a document

What the patterns read where the tags of a document stand: each pattern takes its own kind of tag with its
own name as a whole, and with it the text of the attributes or the name and the contents of a slot. An
opening tag is no self-closing element, as long as it has no quotes or its line is clear.
-/

namespace ComponentTags

open Text (isBlank isInlineBlank)

namespace TagAttribute

variable {a : TagAttribute} {attributes : List TagAttribute} {s text rest : List Char}

@[simp]
theorem listText_nil : listText [] = [] := rfl

@[simp]
theorem listText_cons (a : TagAttribute) (attributes : List TagAttribute) :
    listText (a :: attributes) = ' ' :: (a.text ++ listText attributes) := rfl

theorem exists_text_eq_cons (a : TagAttribute) :
    ∃ c s, a.text = c :: s ∧ Attribute.isNameChar c = true := by
  cases hname : a.name with
  | nil => exact absurd hname a.named
  | cons c name =>
    have hc : Attribute.isNameChar c = true := a.nameChars c (by simp [hname])
    cases hvalue : a.value with
    | none => exact ⟨c, name, by simp [TagAttribute.text, hvalue, hname], hc⟩
    | some v =>
      exact ⟨c, name ++ '=' :: '"' :: (v ++ ['"']), by simp [TagAttribute.text, hvalue, hname], hc⟩

/-- Neither the keys nor the values that are read from attributes hold a mark of tags. -/
theorem not_mem_entry {x : Char} (hx : x = '<' ∨ x = '>') {key value : String}
    (given : (key, value) ∈ Attribute.parse (listText attributes)) : x ∉ key.toList ∧ x ∉ value.toList := by
  have hlist : x ∉ listText attributes := by
    rcases hx with rfl | rfl
    · exact tagless_listText attributes
    · exact endless_listText attributes
  have hother : Text.isKeyChar x = false ∧ x ∉ Attribute.bindMarker ∧ x ∉ "true".toList ∧
      x ≠ '\'' ∧ x ≠ '\\' := by rcases hx with rfl | rfl <;> decide
  constructor
  · intro hmem
    have hkey := Attribute.isKeyChar_of_mem_key given x hmem
    rw [hother.1] at hkey
    cases hkey
  · exact fun hmem => hlist (Attribute.mem_of_mem_parse hother.2.1 hother.2.2.1 hother.2.2.2.1
      hother.2.2.2.2 given hmem)

/-! ## On a line -/

theorem here_text (a : TagAttribute) (h : (Markup.readLine s).here = some (text, rest)) :
    (Markup.readLine (a.text ++ s)).here = some (a.text ++ text, rest) := by
  unfold TagAttribute.text
  split
  · rw [Markup.here_append_of_isLineChar
      (fun c hc => Markup.isLineChar_of_isNameChar (a.nameChars c hc)), h]
    rfl
  · rename_i v hv
    have hquote : '"' ∉ v := fun hmem => (a.plain v hv _ hmem).1 rfl
    have hfeed : '\n' ∉ v := fun hmem => (a.plain v hv _ hmem).2.2.2 rfl
    have hread := Markup.here_attribute a.nameChars hquote hfeed h
    simpa using hread

theorem here_space_text (a : TagAttribute) (s : List Char) :
    (Markup.readLine (' ' :: (a.text ++ s))).here =
      Markup.Reading.extend ' ' (Markup.readLine (a.text ++ s)).here := by
  obtain ⟨c, r, htext, hc⟩ := a.exists_text_eq_cons
  rw [htext, List.cons_append]
  exact Markup.here_space_cons (Markup.isLineChar_of_isNameChar hc) _

theorem here_listText (attributes : List TagAttribute)
    (h : (Markup.readLine s).here = some (text, rest)) :
    (Markup.readLine (listText attributes ++ s)).here = some (listText attributes ++ text, rest) := by
  induction attributes with
  | nil => exact h
  | cons a attributes ih =>
    rw [listText_cons, List.cons_append, List.append_assoc, here_space_text, here_text a ih]
    simp [Markup.Reading.extend]

/-- Without values, a line is read through the attributes to what follows. -/
theorem here_listText_of_bare (bare : Bare attributes) (s : List Char) :
    (Markup.readLine (listText attributes ++ s)).here =
      Markup.Reading.prepend (listText attributes) (Markup.readLine s).here := by
  induction attributes with
  | nil => simp
  | cons a attributes ih =>
    have hvalue : a.value = none := bare a (by simp)
    have hname : a.text = a.name := by simp [TagAttribute.text, hvalue]
    rw [listText_cons, List.cons_append, List.append_assoc, here_space_text, hname,
      Markup.here_append_of_isLineChar
        (fun c hc => Markup.isLineChar_of_isNameChar (a.nameChars c hc)),
      ih fun b hb => bare b (by simp [hb]), Markup.Reading.prepend_append,
      Markup.Reading.extend_prepend]

/-- Behind the name of an element one space is passed over before the attributes are read. -/
theorem dropWhile_listText_append {blank : Char → Bool} (hspace : blank ' ' = true)
    (hblank : ∀ c, isBlank c = false → blank c = false) (a : TagAttribute)
    (attributes : List TagAttribute) (s : List Char) :
    (listText (a :: attributes) ++ s).dropWhile blank = (listText (a :: attributes)).tail ++ s := by
  obtain ⟨c, r, htext, hc⟩ := a.exists_text_eq_cons
  have hc' : blank c = false := hblank c (Attribute.isBlank_of_isNameChar hc)
  rw [listText_cons, htext, List.cons_append, List.dropWhile_cons_of_pos hspace]
  simp [hc']

end TagAttribute

namespace Attribute

theorem parse_tail_listText (attributes : List TagAttribute) :
    parse (TagAttribute.listText attributes).tail = parse (TagAttribute.listText attributes) := by
  cases attributes with
  | nil => rfl
  | cons a attributes =>
    have hspace : ∀ c ∈ [' '], isBlank c = true := List.all_eq_true.1 (by decide)
    exact (parse_append_of_blank hspace).symm

end Attribute

namespace Markup

variable {name s rest w : List Char} {attributes : List TagAttribute}

/-! ## Self-closing elements -/

theorem selfClosing?_source (hname : IsTagName name) (attributes : List TagAttribute)
    (w : List Char) :
    selfClosing? name ('<' :: (name ++ (TagAttribute.listText attributes ++ " />".toList)) ++ w) =
      some ((TagAttribute.listText attributes).tail, w) := by
  have hend : (readLine (" />".toList ++ w)).here = some ([], w) :=
    here_of_selfClosingEnd? (by rfl)
  have hread := TagAttribute.here_listText attributes hend
  have hshape : '<' :: (name ++ (TagAttribute.listText attributes ++ " />".toList)) ++ w =
      '<' :: (name ++ (TagAttribute.listText attributes ++ (" />".toList ++ w))) := by simp
  rw [hshape]
  apply selfClosing?_of_here hname (TagAttribute.endsName_listText_append attributes rfl)
  cases attributes with
  | nil => exact here_of_selfClosingEnd? (by rfl)
  | cons a attributes =>
    rw [TagAttribute.dropWhile_listText_append (by decide) fun c hc =>
      isInlineBlank_of_not_isBlank hc]
    rw [TagAttribute.listText_cons, List.cons_append, List.append_assoc,
      TagAttribute.here_space_text] at hread
    obtain ⟨inner, hinner, hrest⟩ := Reading.extend_eq_cons hread
    rw [TagAttribute.listText_cons, List.tail_cons, List.append_assoc, hrest]
    simp only [List.append_nil] at hinner
    rw [(List.cons.inj hinner).2]

/-- Where the line is clear, no self-closing element starts. -/
theorem selfClosing?_of_clearLine (hname : IsPlainName name) (h : clearLine false s = true) :
    selfClosing? name s = none := by
  cases hfound : selfClosing? name s with
  | none => rfl
  | some found =>
    obtain ⟨text, rest⟩ := found
    obtain ⟨r, after, rfl, hafter, -, hread⟩ := selfClosing?_eq_some hfound
    obtain ⟨gap, rfl, hgap⟩ := eq_append_of_afterName hafter
    obtain ⟨gap', hline, hgap', hfeed⟩ := (readLine_runsToEnd _).1 hread
    have inline {u : List Char} (hu : ∀ c ∈ u, isInlineBlank c = true) : '\n' ∉ u := fun hmem =>
      absurd (hu _ hmem) (by decide)
    have hblanks : after = after.takeWhile isInlineBlank ++ after.dropWhile isInlineBlank :=
      (List.takeWhile_append_dropWhile).symm
    have hwhole : '<' :: (gap ++ name ++ after) =
        ('<' :: (gap ++ name ++ after.takeWhile isInlineBlank ++ text ++ gap')) ++ '/' :: '>' :: rest := by
      conv => lhs; rw [hblanks, hline]
      simp
    rw [hwhole] at h
    have hmem := mem_of_clearLine h
    have htake : '\n' ∉ after.takeWhile isInlineBlank :=
      inline fun c hc => List.all_eq_true.1 List.all_takeWhile c hc
    have hname' : '\n' ∉ name := fun hmem => absurd (hname.chars _ hmem) (by decide)
    simp [inline (List.all_eq_true.1 hgap), hname', htake, hfeed, inline hgap'] at hmem

/-- An opening tag without values is no self-closing element. -/
theorem selfClosing?_of_bare (hname : IsPlainName name) (bare : TagAttribute.Bare attributes)
    (w : List Char) :
    selfClosing? name ('<' :: (name ++ (TagAttribute.listText attributes ++ ['>'])) ++ w) = none := by
  have hshape : '<' :: (name ++ (TagAttribute.listText attributes ++ ['>'])) ++ w =
      '<' :: (name ++ (TagAttribute.listText attributes ++ '>' :: w)) := by simp
  have hfound : afterName isInlineBlank name (name ++ (TagAttribute.listText attributes ++ '>' :: w)) =
      some (TagAttribute.listText attributes ++ '>' :: w) :=
    afterName_tagName hname.toTagName isTagChar_not_inlineBlank
  have hstop : (readLine ('>' :: w)).here = none := by
    have hend : selfClosingEnd? ('>' :: w) = none :=
      selfClosingEnd?_cons_of_ne (by decide) (by decide) w
    simp [readLine, hend, Reading.extend]
  have hread := TagAttribute.here_listText_of_bare bare ('>' :: w)
  rw [hstop] at hread
  have hnone : (readLine ((TagAttribute.listText attributes ++ '>' :: w).dropWhile isInlineBlank)).here =
      none := by
    cases attributes with
    | nil =>
      rw [TagAttribute.listText_nil, List.nil_append, List.dropWhile_cons_of_neg (by decide)]
      exact hstop
    | cons a attributes =>
      rw [TagAttribute.dropWhile_listText_append (by decide) fun c hc =>
        isInlineBlank_of_not_isBlank hc]
      rw [TagAttribute.listText_cons, List.cons_append, List.append_assoc,
        TagAttribute.here_space_text] at hread
      rw [TagAttribute.listText_cons, List.tail_cons, List.append_assoc]
      exact Option.map_eq_none_iff.1 hread
  rw [hshape]
  simp [selfClosing?, hfound, hnone]

/-! ## Opening tags -/

theorem tagAttribute?_text (a : TagAttribute) {c : Char} (hname : Attribute.isNameChar c = false)
    (hequals : c ≠ '=') (s : List Char) :
    tagAttribute? (a.text ++ c :: s) = some (a.text, c :: s) := by
  have taken {d : Char} (hd : Attribute.isNameChar d = false) (r : List Char) :
      (a.name ++ d :: r).takeWhile Attribute.isNameChar = a.name := by
    rw [List.takeWhile_append_of_pos a.nameChars, List.takeWhile_cons_of_neg (by simp [hd]),
      List.append_nil]
  have dropped {d : Char} (hd : Attribute.isNameChar d = false) (r : List Char) :
      (a.name ++ d :: r).dropWhile Attribute.isNameChar = d :: r := by
    rw [List.dropWhile_append_of_pos a.nameChars, List.dropWhile_cons_of_neg (by simp [hd])]
  unfold TagAttribute.text
  cases hvalue : a.value with
  | none => simp [tagAttribute?, taken hname, dropped hname, a.named, hequals]
  | some v =>
    have hquote : '"' ∉ v := fun hmem => (a.plain v hvalue _ hmem).1 rfl
    have hshape : a.name ++ '=' :: '"' :: (v ++ ['"']) ++ c :: s =
        a.name ++ '=' :: '"' :: (v ++ '"' :: c :: s) := by simp
    have hread : tagValue? ('"' :: (v ++ '"' :: c :: s)) = some ('"' :: v ++ ['"'], c :: s) := by
      simp [tagValue?, Attribute.quotedRun?_quoted (.inl rfl) hquote]
    simp [hshape, tagAttribute?, taken (d := '=') (by decide), dropped (d := '=') (by decide),
      a.named, hread]

/-- An attribute that may stand last in an opening tag does not end in a character that refuses the tag's
end. -/
theorem mayPrecedeEnd_text (a : TagAttribute) (hending : a.value = none → a.name.getLast? ≠ some '-')
    (c : Char) : mayPrecedeEnd (a.text.getLastD c) = true := by
  unfold TagAttribute.text
  cases hvalue : a.value with
  | some v =>
    have hquoted : a.name ++ '=' :: '"' :: (v ++ ['"']) = (a.name ++ '=' :: '"' :: v) ++ ['"'] := by simp
    dsimp only
    rw [hquoted, List.getLastD_concat]
    decide
  | none =>
    have hlast := a.name.getLast?_eq_some_getLast a.named
    have hchar := a.nameChars _ (List.getLast_mem a.named)
    have hhyphen := hending hvalue
    rw [hlast, ne_eq, Option.some.injEq] at hhyphen
    have hslash := Attribute.ne_of_isNameChar (d := '/') (by decide) hchar
    have hequals := Attribute.ne_of_isNameChar (d := '=') (by decide) hchar
    simp [mayPrecedeEnd, List.getLastD_eq_getLast?, hlast, hhyphen, hslash, hequals]

theorem openingRest?_of_tagAttribute? {last : Char} {item : List Char} (hs : s.dropWhile isBlank = s)
    (h : tagAttribute? s = some (item, rest)) :
    openingRest? last (' ' :: s) =
      (openingRest? (item.getLastD ' ') rest).map fun (text, rest) => (' ' :: item ++ text, rest) := by
  have htake : s.takeWhile isBlank = [] := by
    have hall := List.takeWhile_append_dropWhile (p := isBlank) (l := s)
    rw [hs] at hall
    exact List.append_left_eq_self.1 hall
  rw [openingRest?, if_neg (by decide), if_pos (by decide)]
  split
  · rename_i found
    rw [hs, h] at found
    cases found
    rw [htake]
    rfl
  · rename_i found
    rw [hs, h] at found
    cases found

/-- The attributes of an opening tag are read up to the tag's end. -/
theorem openingRest?_listText {last : Char} (hlast : attributes = [] → mayPrecedeEnd last = true)
    (hending : TagAttribute.EndsOpenly attributes) (w : List Char) :
    openingRest? last (TagAttribute.listText attributes ++ '>' :: w) =
      some (TagAttribute.listText attributes, w) := by
  induction attributes generalizing last with
  | nil =>
    rw [TagAttribute.listText_nil, List.nil_append, openingRest?, if_pos rfl, if_pos (hlast rfl)]
  | cons a attributes ih =>
    obtain ⟨d, r, hfollow, hname, hequals⟩ : ∃ d r, TagAttribute.listText attributes ++ '>' :: w = d :: r ∧
        Attribute.isNameChar d = false ∧ d ≠ '=' := by
      cases attributes with
      | nil => exact ⟨'>', w, rfl, by decide, by decide⟩
      | cons b attributes => exact ⟨' ', _, rfl, by decide, by decide⟩
    have hstart : (a.text ++ d :: r).dropWhile isBlank = a.text ++ d :: r := by
      obtain ⟨c, t, htext, hc⟩ := a.exists_text_eq_cons
      rw [htext, List.cons_append,
        List.dropWhile_cons_of_neg (by simp [Attribute.isBlank_of_isNameChar hc])]
    have hrest : TagAttribute.EndsOpenly attributes := by
      intro b hb
      cases attributes with
      | nil => cases hb
      | cons c attributes => exact hending b (by rw [List.getLast?_cons_cons]; exact hb)
    have hlast' : attributes = [] → mayPrecedeEnd (a.text.getLastD ' ') = true := by
      rintro rfl
      exact mayPrecedeEnd_text a (hending a rfl) ' '
    have hread := ih hlast' hrest
    rw [hfollow] at hread
    rw [TagAttribute.listText_cons, List.cons_append, List.append_assoc, hfollow,
      openingRest?_of_tagAttribute? hstart (tagAttribute?_text a hname hequals r), hread]
    rfl

theorem opening?_source (hname : IsTagName name) (hlast : attributes = [] → name.getLast? ≠ some '-')
    (hending : TagAttribute.EndsOpenly attributes) (w : List Char) :
    opening? name ('<' :: (name ++ (TagAttribute.listText attributes ++ ['>'])) ++ w) =
      some (TagAttribute.listText attributes, w) := by
  have hshape : '<' :: (name ++ (TagAttribute.listText attributes ++ ['>'])) ++ w =
      '<' :: (name ++ (TagAttribute.listText attributes ++ '>' :: w)) := by simp
  have hfound : afterName isBlank name (name ++ (TagAttribute.listText attributes ++ '>' :: w)) =
      some (TagAttribute.listText attributes ++ '>' :: w) :=
    afterName_tagName hname fun c hc => isBlank_of_isTagChar hc
  have hmay (bare : attributes = []) : mayPrecedeEnd (name.getLastD '<') = true := by
    have heq := name.getLast?_eq_some_getLast hname.ne_nil
    have hhyphen := hlast bare
    rw [heq, ne_eq, Option.some.injEq] at hhyphen
    have other {d : Char} (hd : d ∉ name) : name.getLast hname.ne_nil ≠ d := by
      rintro rfl
      exact hd (List.getLast_mem hname.ne_nil)
    simp [mayPrecedeEnd, List.getLastD_eq_getLast?, heq, hhyphen,
      other (hname.not_mem (c := '/') (by decide) (by decide)),
      other (hname.not_mem (c := '=') (by decide) (by decide))]
  rw [hshape]
  simp only [opening?, hfound]
  exact openingRest?_listText hmay hending w

/-! ## Closing tags -/

theorem closing?_source (hname : IsTagName name) (w : List Char) :
    closing? name ('<' :: '/' :: (name ++ ['>']) ++ w) = some ((), w) := by
  have hshape : '<' :: '/' :: (name ++ ['>']) ++ w = '<' :: '/' :: (name ++ '>' :: w) := by simp
  have hfound : afterName isBlank name (name ++ '>' :: w) = some ('>' :: w) :=
    afterName_tagName hname fun c hc => isBlank_of_isTagChar hc
  have hends : endsName ('>' :: w) = true := rfl
  have htag : afterTagEnd? ('>' :: w) = some w := rfl
  rw [hshape]
  simp [closing?, hfound, hends, htag]

/-! ## Slots -/

/-- The contents of a slot run to the first place where a slot is closed. -/
theorem slotContents?_append_of_skips {contents closer : List Char}
    (hskips : Skips slotEnd? contents closer) (hend : slotEnd? closer = some w) :
    slotContents? (contents ++ closer) = some (contents, w) := by
  induction contents with
  | nil =>
    rw [List.nil_append]
    unfold slotContents?
    rw [hend]
  | cons c contents ih =>
    obtain ⟨hhead, htail⟩ := Skips.cons_iff.1 hskips
    rw [List.cons_append] at hhead ⊢
    unfold slotContents?
    rw [hhead]
    simp [ih htail]

theorem slotName?_source (hquote : '"' ∉ name) :
    slotName? 't' (" name=\"".toList ++ (name ++ ['"'])) = some name := by
  have hshape : " name=\"".toList ++ (name ++ ['"']) = ' ' :: 'n' :: ("ame=\"".toList ++ (name ++ ['"'])) :=
    rfl
  have hvalue : nameValue? ('n' :: ("ame=\"".toList ++ (name ++ ['"']))) = some name := by
    have hafter : Text.afterLiteral "name=".toList ('n' :: ("ame=\"".toList ++ (name ++ ['"']))) =
        some ('"' :: (name ++ ['"'])) := rfl
    simp only [nameValue?, hafter, Attribute.closeQuote?_append hquote, Option.map_some]
    rfl
  have hword : Attribute.isPlainNameChar 't' = true := by decide
  have hspace : Attribute.isPlainNameChar ' ' = false := by decide
  rw [hshape, slotName?]
  simp only [hword, if_true]
  rw [slotName?]
  simp only [hspace, Bool.false_eq_true, if_false, hvalue]

theorem slot?_source {contents : List Char} (hname : IsSlotName name)
    (hskips : Skips slotEnd? contents ("</slot>".toList ++ w)) :
    slot? ("<slot name=\"".toList ++ (name ++ "\">".toList) ++ (contents ++ ("</slot>".toList ++ w))) =
      some (⟨name, contents⟩, w) := by
  let header := " name=\"".toList ++ (name ++ ['"'])
  let body := contents ++ ("</slot>".toList ++ w)
  have hshape : "<slot name=\"".toList ++ (name ++ "\">".toList) ++ body =
      '<' :: ("slot".toList ++ (header ++ '>' :: body)) := by simp [header]
  have hfound : afterName isBlank "slot".toList ("slot".toList ++ (header ++ '>' :: body)) =
      some (header ++ '>' :: body) :=
    afterName_tagName slot_isPlainName.toTagName fun c hc => isBlank_of_isTagChar hc
  have hends : endsName (header ++ '>' :: body) = true := rfl
  have hend : '>' ∉ header := by
    intro hmem
    rcases List.mem_append.1 hmem with hmem | hmem
    · exact absurd hmem (by decide)
    · rcases List.mem_append.1 hmem with hmem | hmem
      · exact (hname _ hmem).2.2.2 rfl
      · exact absurd hmem (by decide)
  have hsplit : splitHeader? (header ++ '>' :: body) = some (header, body) :=
    Attribute.closeQuote?_append hend
  have hread : slotName? 't' header = some name := slotName?_source fun hmem => (hname _ hmem).1 rfl
  have hcontents : slotContents? body = some (contents, w) :=
    slotContents?_append_of_skips hskips (by rfl)
  rw [hshape]
  simp only [slot?, hfound, hends, hsplit, hread, hcontents, if_true, Option.map_some]

end Markup

end ComponentTags
