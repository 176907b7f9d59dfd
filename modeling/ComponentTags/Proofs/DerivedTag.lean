import ComponentTags.Proofs.AcceptedName
import ComponentTags.Proofs.KebabCase
import ComponentTags.Proofs.TextPieces

/-!
# Tags of views

A component without a tag of its own takes the last segment of its view's path in kebab case. The path is cut at
each `::` from its start, and what is left is cut at points. So a segment of words behind a point is taken as it
is, and so is one behind a `::`, unless the colons in front of it are odd in number: then they pair off with the
ones before, one colon is left in front of the segment, and no tag starts with a colon.
-/

namespace ComponentTags

namespace Text

theorem trailing_dropWhile_isBlank {c : Char} (hc : isBlank c = false) (s : List Char) :
    trailing c (s.dropWhile isBlank) = trailing c s := by
  have habsent : c ∉ s.takeWhile isBlank := by
    intro hmem
    have hblank := List.all_eq_true.1 List.all_takeWhile c hmem
    rw [hc] at hblank
    cases hblank
  rw [← trailing_append habsent, List.takeWhile_append_dropWhile]

end Text

/-! ## The last segment -/

/-- The segment holds no character that paths are cut at. -/
def IsPlainSegment (segment : List Char) : Prop :=
  ∀ c ∈ segment, c ≠ '.' ∧ c ≠ ':'

variable {segment : List Char}

/-- Behind a point a segment is found. -/
theorem lastSegment_point (plain : IsPlainSegment segment) (path : List Char) :
    lastSegment (path ++ '.' :: segment) = segment := by
  have hpoint : ∀ c ∈ segment, c ∉ ['.'] := fun c hc => by simpa using (plain c hc).1
  have hcolon : ∀ c ∈ '.' :: segment, c ∉ [':', ':'] :=
    List.forall_mem_cons.2 ⟨by decide, fun c hc => by simpa using (plain c hc).2⟩
  have hpath := Text.lastPiece_append (List.cons_ne_nil _ _) hcolon path
  have hlast := Text.lastPiece_append (List.cons_ne_nil _ _) hpoint (Text.lastPiece [':', ':'] path ++ ['.'])
  rw [Text.lastPiece_concat_self, List.nil_append, List.append_assoc, List.singleton_append, ← hpath] at hlast
  exact hlast

/-- Behind two colons a segment is found, with one more colon in front if the colons in front of these two are odd
in number. -/
theorem lastSegment_colons (plain : IsPlainSegment segment) (path : List Char) :
    lastSegment (path ++ ':' :: ':' :: segment) =
      List.replicate (Text.trailing ':' path % 2) ':' ++ segment := by
  have hcolon : ∀ c ∈ segment, c ∉ [':', ':'] := fun c hc => by simpa using (plain c hc).2
  have hpath := Text.lastPiece_append (List.cons_ne_nil _ _) hcolon (path ++ [':', ':'])
  rw [Text.lastPiece_append_pair] at hpath
  have hsplit : path ++ ':' :: ':' :: segment = path ++ [':', ':'] ++ segment := by simp
  have hpoint : ¬ ['.'] <:+: List.replicate (Text.trailing ':' path % 2) ':' ++ segment := by
    intro hinfix
    have hmem : '.' ∈ List.replicate (Text.trailing ':' path % 2) ':' ++ segment := hinfix.subset (by simp)
    rcases List.mem_append.1 hmem with hmem | hmem
    · exact absurd (List.eq_of_mem_replicate hmem) (by decide)
    · exact (plain '.' hmem).1 rfl
  show Text.lastPiece ['.'] (Text.lastPiece [':', ':'] _) = _
  rw [hsplit, hpath, Text.lastPiece_of_absent hpoint]

namespace Component

open Text (NameWord kebabCase camelCase)

variable {view : String} {tag : List Char} {dataModel : Option Value}

/-- What becomes of a view for which no tag is given. -/
def ofSegment (tag : List Char) (view : List Char) (dataModel : Option Value) :
    Except RegistrationError Component :=
  if isTag tag then .ok ⟨String.ofList view, .text (String.ofList tag), modelOf dataModel⟩
  else .error (.invalidTag (.text (String.ofList tag)) (some (String.ofList view)))

theorem make_none (hview : Text.strip view.toList ≠ []) :
    make view none dataModel =
      ofSegment (kebabCase (lastSegment (Text.strip view.toList))) (Text.strip view.toList) dataModel := by
  unfold make
  split
  · rename_i hstripped
    exact absurd hstripped hview
  · by_cases htag : isTag (kebabCase (lastSegment (Text.strip view.toList))) = true
    · simp [ofSegment, deriveTag, validateTag, tagText?, htag, Except.map]
    · simp [ofSegment, deriveTag, validateTag, tagText?, htag, Except.map]

/-! ## Segments of words -/

/-- A segment that consists of letters, digits and hyphens and gives a tag. -/
structure IsSegment (segment tag : List Char) : Prop where
  ne_nil : segment ≠ []
  chars : ∀ c ∈ segment, c.isAlphanum = true ∨ c = '-'
  kebab : kebabCase segment = tag
  accepted : isTag tag = true

variable {ws : List NameWord}

theorem not_isTag_colon_cons (tag : List Char) : ¬ isTag (':' :: tag) = true := by
  have hstart : ¬ IsIdentifierStart ':' := by decide
  rw [isTag_iff]
  rintro (⟨c, rest, heq, hc, -⟩ | ⟨front, heq, c, rest, rfl, hc, -⟩)
  · cases heq
    exact hstart hc
  · cases heq
    exact hstart hc

theorem isTag_kebab (hne : ws ≠ []) : isTag (NameWord.kebab ws) = true := by
  obtain ⟨w, ws, rfl⟩ := List.exists_cons_of_ne_nil hne
  rw [isTag_iff]
  refine .inl ⟨w.first, w.others ++ ws.flatMap fun v => '-' :: v.text, NameWord.kebab_cons w ws, ?_, ?_⟩
  · refine .inl (isAlpha_iff_isLetter.1 ?_)
    unfold Char.isAlpha
    simp [w.firstLower]
  · intro d hd
    have hmem : d ∈ NameWord.kebab (w :: ws) := by
      rw [NameWord.kebab_cons]
      exact List.mem_cons_of_mem w.first hd
    refine isTagChar_iff.1 ?_
    rcases NameWord.of_mem_kebab _ hmem with hsmall | rfl
    · simp [isTagChar, Text.isAlphanum_of_isSmall hsmall]
    · decide

/-- A name of words is such a segment, in kebab case as well as in camel case. -/
theorem isSegment_of_words (hne : ws ≠ [])
    (h : segment = camelCase (NameWord.kebab ws) ∨ segment = NameWord.kebab ws) :
    IsSegment segment (NameWord.kebab ws) := by
  have haccepted := isTag_kebab hne
  obtain ⟨w, ws, rfl⟩ := List.exists_cons_of_ne_nil hne
  rcases h with rfl | rfl
  · refine ⟨?_, fun c hc => .inl ?_, NameWord.kebabCase_camelCase_kebab w ws, haccepted⟩
    · simp [NameWord.camelCase_kebab, w.text_ne_nil]
    · rw [NameWord.camelCase_kebab] at hc
      rcases List.mem_append.1 hc with hc | hc
      · exact Text.isAlphanum_of_isSmall (w.isSmall_of_mem_text c hc)
      · obtain ⟨v, -, hc⟩ := List.mem_flatMap.1 hc
        exact v.isAlphanum_of_mem_capital c hc
  · refine ⟨?_, fun c hc => ?_, NameWord.kebabCase_kebab w ws, haccepted⟩
    · simp [NameWord.kebab_cons, w.text_ne_nil]
    · exact (NameWord.of_mem_kebab _ hc).imp_left Text.isAlphanum_of_isSmall

namespace IsSegment

theorem plain (h : IsSegment segment tag) : IsPlainSegment segment := by
  intro c hc
  rcases h.chars c hc with halnum | rfl
  · constructor
    all_goals
      rintro rfl
      exact absurd halnum (by decide)
  · decide

theorem strip_append (h : IsSegment segment tag) {c : Char} (hc : Text.isBlank c = false)
    (path mark : List Char) :
    Text.strip (path ++ c :: (mark ++ segment)) = path.dropWhile Text.isBlank ++ c :: (mark ++ segment) := by
  have hlast : ∀ d ∈ (c :: (mark ++ segment)).getLast?, Text.isBlank d = false := by
    intro d hd
    rw [← List.cons_append, List.getLast?_append_of_ne_nil _ h.ne_nil] at hd
    rcases h.chars d (List.mem_of_mem_getLast? hd) with halnum | rfl
    · exact isBlank_of_isTagChar (by simp [isTagChar, halnum])
    · decide
  have hnone : ∀ d ∈ ([] : List Char), Text.isBlank d = true := List.forall_mem_nil _
  have hkept := Text.strip_append (List.cons_ne_nil _ _) (by simpa using hc) hlast hnone path
  rwa [List.append_nil] at hkept

/-- Behind a point the segment gives the tag. -/
theorem make_point (h : IsSegment segment tag) (path : List Char) (dataModel : Option Value) :
    make (String.ofList (path ++ '.' :: segment)) none dataModel =
      .ok ⟨String.ofList (Text.strip (path ++ '.' :: segment)), .text (String.ofList tag), modelOf dataModel⟩ := by
  have hstrip := h.strip_append (c := '.') (by decide) path []
  rw [List.nil_append] at hstrip
  rw [make_none (by rw [String.toList_ofList, hstrip]; simp), String.toList_ofList, hstrip,
    lastSegment_point h.plain, h.kebab, ofSegment, if_pos h.accepted]

/-- Behind two colons the segment gives the tag if the colons in front of them pair off, and otherwise it gives a
text with a colon in front, which is refused. -/
theorem make_colons (h : IsSegment segment tag) (path : List Char) (dataModel : Option Value) :
    make (String.ofList (path ++ ':' :: ':' :: segment)) none dataModel =
      if Text.trailing ':' path % 2 = 0 then
        .ok ⟨String.ofList (Text.strip (path ++ ':' :: ':' :: segment)), .text (String.ofList tag),
          modelOf dataModel⟩
      else
        .error (.invalidTag (.text (String.ofList (':' :: tag)))
          (some (String.ofList (Text.strip (path ++ ':' :: ':' :: segment))))) := by
  have hstrip := h.strip_append (c := ':') (by decide) path [':']
  rw [List.singleton_append] at hstrip
  rw [make_none (by rw [String.toList_ofList, hstrip]; simp), String.toList_ofList, hstrip,
    lastSegment_colons h.plain, Text.trailing_dropWhile_isBlank (by decide)]
  by_cases heven : Text.trailing ':' path % 2 = 0
  · rw [heven, if_pos rfl, List.replicate_zero, List.nil_append, h.kebab, ofSegment, if_pos h.accepted]
  · have hodd : Text.trailing ':' path % 2 = 1 := by omega
    rw [if_neg heven, hodd, List.replicate_one, List.singleton_append, Text.kebabCase_colon_cons, h.kebab,
      ofSegment, if_neg (not_isTag_colon_cons tag)]

end IsSegment

/-- Names of words keep their words in camel case and in kebab case, and a path that ends in such a name behind a
point, or behind colons of even number, gives the name in kebab case as its tag. Behind colons of odd number, two
at least, it is refused: the tag would start with a colon. -/
theorem make_of_words (hne : ws ≠ []) :
    kebabCase (camelCase (NameWord.kebab ws)) = NameWord.kebab ws ∧
    camelCase (kebabCase (camelCase (NameWord.kebab ws))) = camelCase (NameWord.kebab ws) ∧
    ∀ segment, segment = camelCase (NameWord.kebab ws) ∨ segment = NameWord.kebab ws →
      ∀ (path : List Char) (dataModel : Option Value),
        make (String.ofList (path ++ '.' :: segment)) none dataModel =
          .ok ⟨String.ofList (Text.strip (path ++ '.' :: segment)), .text (String.ofList (NameWord.kebab ws)),
            modelOf dataModel⟩ ∧
        make (String.ofList (path ++ ':' :: ':' :: segment)) none dataModel =
          if Text.trailing ':' path % 2 = 0 then
            .ok ⟨String.ofList (Text.strip (path ++ ':' :: ':' :: segment)),
              .text (String.ofList (NameWord.kebab ws)), modelOf dataModel⟩
          else
            .error (.invalidTag (.text (String.ofList (':' :: NameWord.kebab ws)))
              (some (String.ofList (Text.strip (path ++ ':' :: ':' :: segment))))) := by
  have hcamel := (isSegment_of_words hne (.inl rfl)).kebab
  refine ⟨hcamel, congrArg camelCase hcamel, fun segment hsegment path dataModel => ?_⟩
  have hgives := isSegment_of_words hne hsegment
  exact ⟨hgives.make_point path dataModel, hgives.make_colons path dataModel⟩

/-- The words of `alert-box2`. -/
def sampleWords : List NameWord :=
  [⟨'a', "lert".toList, by decide, List.all_eq_true.1 (by decide), by decide⟩,
    ⟨'b', "ox2".toList, by decide, List.all_eq_true.1 (by decide), by decide⟩]

theorem make_of_words_of_alert :
    sampleWords ≠ [] ∧ kebabCase "alertBox2".toList = "alert-box2".toList ∧
      make "shop.alertBox2" none none = .ok ⟨"shop.alertBox2", .text "alert-box2", none⟩ ∧
      make "shop::alert-box2" none none = .ok ⟨"shop::alert-box2", .text "alert-box2", none⟩ := by
  have hne : sampleWords ≠ [] := by decide
  have hcamel : camelCase (NameWord.kebab sampleWords) = "alertBox2".toList := by decide +kernel
  obtain ⟨hkebab, -, hmake⟩ := make_of_words hne
  refine ⟨hne, ?_, ?_, ?_⟩
  · rw [← hcamel]
    exact hkebab
  · exact (hmake "alertBox2".toList (.inl hcamel.symm) "shop".toList none).1
  · exact (hmake "alert-box2".toList (.inr rfl) "shop".toList none).2

/-- The word of `card`. -/
def cardWord : NameWord := ⟨'c', "ard".toList, by decide, List.all_eq_true.1 (by decide), by decide⟩

/-- With three colons in front, one of them stays in front of the segment. -/
theorem make_of_three_colons :
    "a:::card".toList = "a:".toList ++ "::".toList ++ NameWord.kebab [cardWord] ∧
      camelCase (NameWord.kebab [cardWord]) = NameWord.kebab [cardWord] ∧
      make "a:::card" none none = .error (.invalidTag (.text ":card") (some "a:::card")) := by
  have hsegment : IsSegment "card".toList (NameWord.kebab [cardWord]) :=
    isSegment_of_words (List.cons_ne_nil _ _) (.inr rfl)
  exact ⟨by decide, by decide +kernel, hsegment.make_colons "a:".toList none⟩

end Component

end ComponentTags
