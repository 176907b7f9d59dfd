import ComponentTags.Proofs.Refusal

/-!
# Names that are accepted

A tag is to be an identifier: an ASCII letter or underscore, and behind it ASCII letters, digits and the marks
`_`, `.`, `:` and `-`. A prefix is to consist of these characters. The checks accept all these texts, and each
of them once more with a line feed at its end, but nothing else.
-/

namespace ComponentTags

variable {p : List Char → Prop} {s : List Char} {c : Char}

def IsLetter (c : Char) : Prop :=
  ('A' ≤ c ∧ c ≤ 'Z') ∨ ('a' ≤ c ∧ c ≤ 'z')

def IsIdentifierStart (c : Char) : Prop :=
  IsLetter c ∨ c = '_'

def IsIdentifierChar (c : Char) : Prop :=
  IsLetter c ∨ ('0' ≤ c ∧ c ≤ '9') ∨ c ∈ ['_', '.', ':', '-']

instance (c : Char) : Decidable (IsLetter c) :=
  inferInstanceAs (Decidable (_ ∨ _))

instance (c : Char) : Decidable (IsIdentifierStart c) :=
  inferInstanceAs (Decidable (_ ∨ _))

instance (c : Char) : Decidable (IsIdentifierChar c) :=
  inferInstanceAs (Decidable (_ ∨ _ ∨ _))

/-- A tag as it is documented. -/
def IsIdentifier (s : List Char) : Prop :=
  ∃ c rest, s = c :: rest ∧ IsIdentifierStart c ∧ ∀ d ∈ rest, IsIdentifierChar d

/-- A prefix as it is documented. -/
def IsIdentifierPart (s : List Char) : Prop :=
  ∀ c ∈ s, IsIdentifierChar c

instance (s : List Char) : Decidable (IsIdentifierPart s) :=
  List.decidableBAll IsIdentifierChar s

/-- The text is of a kind, or it is once its last character, a line feed, is taken away. -/
def UpToLineFeed (p : List Char → Prop) (s : List Char) : Prop :=
  p s ∨ ∃ front, s = front ++ ['\n'] ∧ p front

/-! ## The characters -/

theorem isAlpha_iff_isLetter : c.isAlpha = true ↔ IsLetter c := by
  unfold Char.isAlpha Char.isUpper Char.isLower IsLetter
  simp only [Bool.or_eq_true, Bool.and_eq_true, decide_eq_true_eq]
  rfl

theorem isTagStart_iff : isTagStart c = true ↔ IsIdentifierStart c := by
  rw [isTagStart, IsIdentifierStart, Bool.or_eq_true, isAlpha_iff_isLetter, beq_iff_eq]

theorem isTagChar_iff : isTagChar c = true ↔ IsIdentifierChar c := by
  have hdigit : c.isDigit = true ↔ '0' ≤ c ∧ c ≤ '9' := by
    unfold Char.isDigit
    simp only [Bool.and_eq_true, decide_eq_true_eq]
    rfl
  unfold isTagChar Char.isAlphanum IsIdentifierChar
  simp only [Bool.or_eq_true, beq_iff_eq, isAlpha_iff_isLetter, hdigit, List.mem_cons, List.not_mem_nil,
    or_false, or_assoc]

theorem isIdentifierChar_of_isIdentifierStart (h : IsIdentifierStart c) : IsIdentifierChar c := by
  rcases h with h | rfl
  · exact .inl h
  · decide

theorem isIdentifier_cons {rest : List Char} :
    IsIdentifier (c :: rest) ↔ IsIdentifierStart c ∧ ∀ d ∈ rest, IsIdentifierChar d := by
  constructor
  · rintro ⟨d, others, heq, h⟩
    cases heq
    exact h
  · exact fun h => ⟨c, rest, rfl, h⟩

theorem IsIdentifier.part (h : IsIdentifier s) : IsIdentifierPart s := by
  obtain ⟨c, rest, rfl, hstart, hrest⟩ := h
  exact List.forall_mem_cons.2 ⟨isIdentifierChar_of_isIdentifierStart hstart, hrest⟩

theorem IsIdentifierPart.getLast?_ne (h : IsIdentifierPart s) : s.getLast? ≠ some '\n' :=
  fun hlast => absurd (h '\n' (List.mem_of_getLast? hlast)) (by decide)

/-! ## The checks -/

/-- A check that is made without the last line feed accepts the texts of a kind up to it. -/
theorem withoutFinalNewline_iff (feedless : ∀ s, p s → s.getLast? ≠ some '\n') :
    p (withoutFinalNewline s) ↔ UpToLineFeed p s := by
  unfold withoutFinalNewline UpToLineFeed
  split
  · rename_i hlast
    obtain ⟨front, rfl⟩ := List.getLast?_eq_some_iff.1 hlast
    have hnot : ¬ p (front ++ ['\n']) := fun h => feedless _ h hlast
    simp [hnot]
  · rename_i hlast
    have hnone : ¬ ∃ front, s = front ++ ['\n'] ∧ p front := by
      rintro ⟨front, rfl, -⟩
      exact hlast (by simp)
    simp [hnone]

theorem isTag_iff : isTag s = true ↔ UpToLineFeed IsIdentifier s := by
  rw [← withoutFinalNewline_iff fun s h => h.part.getLast?_ne, isTag]
  split
  · rename_i hnil
    simp [hnil, IsIdentifier]
  · rename_i c rest hcut
    simp [hcut, isIdentifier_cons, isTagStart_iff, isTagChar_iff]

theorem isTagPrefix_iff : isTagPrefix s = true ↔ UpToLineFeed IsIdentifierPart s := by
  rw [← withoutFinalNewline_iff fun s h => IsIdentifierPart.getLast?_ne h, isTagPrefix, List.all_eq_true]
  simp only [isTagChar_iff]
  rfl

/-- A tag is accepted exactly if it is an identifier, and a stage looks for a name exactly if its tag is an
identifier and its prefix consists of the characters of identifiers, where a line feed may end either. -/
theorem accepts_identifiers (tag start : String) :
    (∀ view,
      (validateTag (.text tag) view = .ok tag ↔ UpToLineFeed IsIdentifier tag.toList) ∧
      (validateTag (.text tag) view = .error (.invalidTag (.text tag) view) ↔
        ¬ UpToLineFeed IsIdentifier tag.toList)) ∧
    ∀ (t : Target) (stage : Stage), t.component.tag = .text tag → t.tagPrefix = .text start →
      stage.seeksTags = true →
      (t.name stage = .ok (start.toList ++ tag.toList) ↔
        UpToLineFeed IsIdentifier tag.toList ∧ UpToLineFeed IsIdentifierPart start.toList) ∧
      ((∃ e, t.name stage = .error e) ↔
        ¬ (UpToLineFeed IsIdentifier tag.toList ∧ UpToLineFeed IsIdentifierPart start.toList)) := by
  simp only [← isTag_iff, ← isTagPrefix_iff]
  refine ⟨fun view => ?_, fun t stage htag hstart _ => ?_⟩
  · cases hvalid : isTag tag.toList <;> simp [validateTag, tagText?, hvalid]
  · have hname : t.elementName = start.toList ++ tag.toList := Target.elementName_eq_append htag hstart
    have hfault : t.nameFault? = none ↔ isTag tag.toList = true ∧ isTagPrefix start.toList = true := by
      simp [Target.nameFault?_eq_none_iff hstart, Component.Offends, Component.HasTag, htag]
    rw [← hfault]
    cases h : t.nameFault? with
    | none => simp [Target.name_of_accepted h, hname]
    | some fault => simp [Target.name, h]

/-- A tag and a prefix in which every mark stands. -/
def forMarks : Target :=
  ⟨⟨"card", "_card.v2:b-1", none⟩, "9-x.", {}⟩

theorem accepts_identifiers_of_marks :
    forMarks.component.tag = .text "_card.v2:b-1" ∧ forMarks.tagPrefix = .text "9-x." ∧
      Stage.opening.seeksTags = true ∧ validateTag "_card.v2:b-1" none = .ok "_card.v2:b-1" ∧
      forMarks.name .opening = .ok "9-x._card.v2:b-1".toList := by
  have others : IsIdentifierPart "card.v2:b-1".toList := by decide
  have tag : UpToLineFeed IsIdentifier "_card.v2:b-1".toList :=
    .inl (isIdentifier_cons.2 ⟨by decide, others⟩)
  have start : UpToLineFeed IsIdentifierPart "9-x.".toList := .inl (by decide)
  obtain ⟨valid, name⟩ := accepts_identifiers "_card.v2:b-1" "9-x."
  exact ⟨rfl, rfl, rfl, (valid none).1.2 tag, (name forMarks .opening rfl rfl rfl).1.2 ⟨tag, start⟩⟩

/-- A line feed ends no identifier, but a tag and a prefix that are accepted. -/
theorem accepts_identifiers_of_line_feed :
    validateTag "card\n" none = .ok "card\n" ∧ ¬ IsIdentifier "card\n".toList ∧
      Target.name ⟨⟨"card", "card", none⟩, "\n", {}⟩ .opening = .ok "\ncard".toList ∧
      ¬ IsIdentifierPart "\n".toList := by
  refine ⟨rfl, fun h => ?_, rfl, by decide⟩
  exact absurd (h.part '\n' (by decide)) (by decide)

end ComponentTags
