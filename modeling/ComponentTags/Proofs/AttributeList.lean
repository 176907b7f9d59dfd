import ComponentTags.Proofs.AttributeValue
import ComponentTags.Proofs.LineReading

/-!
# Lists of attributes

The grammar of attributes: a name, perhaps with a colon in front, and perhaps with a value, which is quoted or
bare. Attributes are listed with white space between them. The colons are written out first and the attributes
are taken from the result, so both steps have to see the same attributes: quoted values are passed over as a
whole by either, names and bare values have no quotes and no white space in them, and what ends an attribute
is white space or the end of the text. Therefore a list is read as one entry per attribute.
-/

namespace ComponentTags.Attribute

variable {name v u s rest : List Char} {c : Char}

/-! ## Writing out colons -/

theorem isNameChar_of_isPlainNameChar (h : isPlainNameChar c = true) : isNameChar c = true := by
  simp [isNameChar, h]

theorem ne_of_isBlank {d : Char} (hd : Text.isBlank d = false) (h : Text.isBlank c = true) : c ≠ d := by
  rintro rfl
  rw [h] at hd
  cases hd

theorem expandRest_nil : expandRest [] = [] := by
  rw [expandRest]
  rfl

theorem expandRest_of_quotedRun? {run : List Char} (h : quotedRun? s = some (run, rest)) :
    expandRest s = run ++ expandRest rest := by
  rw [expandRest]
  split
  · rename_i run' rest' hrun
    rw [h] at hrun
    cases hrun
    rfl
  · rename_i hrun
    rw [h] at hrun
    cases hrun

theorem expandRest_cons_of_not_blank (hdouble : c ≠ '"') (hsingle : c ≠ '\'')
    (hblank : Text.isBlank c = false) : expandRest (c :: s) = c :: expandRest s := by
  rw [expandRest]
  split
  · rename_i run rest hrun
    rw [quotedRun?_cons_of_ne hdouble hsingle] at hrun
    cases hrun
  · simp [hblank]

/-- Behind white space the text is read as at its start. -/
theorem expandRest_cons_of_blank (hblank : Text.isBlank c = true) :
    expandRest (c :: s) = c :: expandShorthand s := by
  have hquoted : quotedRun? (c :: s) = none :=
    quotedRun?_cons_of_ne (ne_of_isBlank (by decide) hblank) (ne_of_isBlank (by decide) hblank)
  rw [expandRest]
  split
  · rename_i found
    rw [hquoted] at found
    cases found
  · simp only [hblank, if_true]
    unfold expandShorthand
    split
    · rename_i found
      rw [found]
      rfl
    · rename_i found
      rw [found]

theorem shorthand?_cons_of_ne (h : c ≠ ':') : shorthand? (c :: s) = none := by
  unfold shorthand?
  split
  · rename_i heq
    exact absurd (List.cons.inj heq).1 h
  · rfl

theorem expandShorthand_cons_of_ne (h : c ≠ ':') : expandShorthand (c :: s) = expandRest (c :: s) := by
  rw [expandShorthand, shorthand?_cons_of_ne h]

/-- White space in front of attributes is kept. -/
theorem expandShorthand_append_of_blank {gap : List Char} (h : ∀ c ∈ gap, Text.isBlank c = true) :
    expandShorthand (gap ++ s) = gap ++ expandShorthand s := by
  induction gap with
  | nil => rfl
  | cons c gap ih =>
    have hc := h c (by simp)
    rw [List.cons_append, expandShorthand_cons_of_ne (ne_of_isBlank (by decide) hc),
      expandRest_cons_of_blank hc, ih fun d hd => h d (by simp [hd]), List.cons_append]

/-- The characters that are copied where colons are written out: no quotes and no white space. -/
def IsCopied (c : Char) : Prop := c ≠ '"' ∧ c ≠ '\'' ∧ Text.isBlank c = false

theorem isCopied_of_isNameChar (h : isNameChar c = true) : IsCopied c :=
  ⟨ne_of_isNameChar (by decide) h, ne_of_isNameChar (by decide) h, isBlank_of_isNameChar h⟩

theorem expandRest_append_of_isCopied (h : ∀ c ∈ u, IsCopied c) :
    expandRest (u ++ s) = u ++ expandRest s := by
  induction u with
  | nil => rfl
  | cons c u ih =>
    obtain ⟨hdouble, hsingle, hblank⟩ := h c (by simp)
    rw [List.cons_append, expandRest_cons_of_not_blank hdouble hsingle hblank,
      ih fun d hd => h d (by simp [hd]), List.cons_append]

/-- A colon in front of a name becomes the marker. -/
theorem expandShorthand_colon (hc : isPlainNameChar c = true) :
    expandShorthand (':' :: c :: s) = bindMarker ++ expandRest (c :: s) := by
  have htake : (c :: s).takeWhile isPlainNameChar = c :: s.takeWhile isPlainNameChar := by
    rw [List.takeWhile_cons_of_pos hc]
  have hshort : shorthand? (':' :: c :: s) =
      some ((c :: s).takeWhile isPlainNameChar, (c :: s).dropWhile isPlainNameChar) := by
    rw [shorthand?, htake]
  have hcopied : ∀ d ∈ (c :: s).takeWhile isPlainNameChar, IsCopied d := fun d hd =>
    isCopied_of_isNameChar (isNameChar_of_isPlainNameChar (List.all_eq_true.1 List.all_takeWhile d hd))
  rw [expandShorthand, hshort]
  simp only
  rw [List.append_assoc, ← expandRest_append_of_isCopied hcopied, List.takeWhile_append_dropWhile]

/-! ## Taking attributes -/

theorem extract_nil : extract [] = [] := by
  rw [extract]
  rfl

theorem extract_of_value? {value rest' : List Char} (hname : name? s = some (name, rest))
    (hvalue : value? rest = some (value, rest')) :
    extract s = ⟨name, some value⟩ :: extract rest' := by
  rw [extract]
  split
  · rename_i found
    rw [hname] at found
    cases found
    split
    · rename_i found
      rw [hvalue] at found
      cases found
      rfl
    · rename_i found
      rw [hvalue] at found
      cases found
  · rename_i found
    rw [hname] at found
    cases found

theorem extract_of_bare (hname : name? s = some (name, rest)) (hvalue : value? rest = none) :
    extract s = ⟨name, none⟩ :: extract rest := by
  rw [extract]
  split
  · rename_i found
    rw [hname] at found
    cases found
    split
    · rename_i found
      rw [hvalue] at found
      cases found
    · rfl
  · rename_i found
    rw [hname] at found
    cases found

theorem extract_cons_of_name?_eq_none (h : name? (c :: s) = none) : extract (c :: s) = extract s := by
  rw [extract.eq_def]
  split
  · rename_i found
    rw [h] at found
    cases found
  · rfl

theorem extract_cons_of_blank (h : Text.isBlank c = true) : extract (c :: s) = extract s := by
  have hname : name? (c :: s) = none := by
    have hplain : isPlainNameChar c = false := by
      cases hplain : isPlainNameChar c with
      | false => rfl
      | true => exact absurd h (by simp [isBlank_of_isNameChar (isNameChar_of_isPlainNameChar hplain)])
    unfold name?
    split
    · rename_i heq
      exact absurd (List.cons.inj heq).1 (ne_of_isBlank (by decide) h)
    · rename_i heq
      cases heq
      simp [hplain]
    · rfl
  exact extract_cons_of_name?_eq_none hname

theorem extract_append_of_blank {gap : List Char} (h : ∀ c ∈ gap, Text.isBlank c = true) :
    extract (gap ++ s) = extract s := by
  induction gap with
  | nil => rfl
  | cons c gap ih =>
    rw [List.cons_append, extract_cons_of_blank (h c (by simp)), ih fun d hd => h d (by simp [hd])]

/-- A name is taken up to the first character that is none of a name. -/
theorem name?_cons_append (hc : isPlainNameChar c = true) (hname : ∀ d ∈ name, isNameChar d = true)
    (hrest : ∀ d ∈ rest.head?, isNameChar d = false) :
    name? (c :: (name ++ rest)) = some (c :: name, rest) := by
  have htake : (name ++ rest).takeWhile isNameChar = name := by
    rw [List.takeWhile_append_of_pos hname]
    cases rest with
    | nil => simp
    | cons d rest => rw [List.takeWhile_cons_of_neg (by simp [hrest d rfl]), List.append_nil]
  have hdrop : (name ++ rest).dropWhile isNameChar = rest := by
    rw [List.dropWhile_append_of_pos hname]
    cases rest with
    | nil => rfl
    | cons d rest => rw [List.dropWhile_cons_of_neg (by simp [hrest d rfl])]
  have hcolon : c ≠ ':' := by
    rintro rfl
    exact absurd hc (by decide)
  unfold name?
  split
  · rename_i heq
    exact absurd (List.cons.inj heq).1 hcolon
  · rename_i heq
    cases heq
    rw [if_pos hc, htake, hdrop]
  · rename_i heq
    cases heq

/-! ## The grammar -/

/-- The characters of a bare value. -/
def IsBareValueChar (c : Char) : Prop :=
  c ≠ '"' ∧ c ≠ '\'' ∧ c ≠ '=' ∧ c ≠ '<' ∧ c ≠ '>' ∧ Text.isBlank c = false

instance (c : Char) : Decidable (IsBareValueChar c) :=
  inferInstanceAs (Decidable (_ ∧ _ ∧ _ ∧ _ ∧ _ ∧ _))

/-- What stands behind a name: nothing, or an equals sign and a value. -/
inductive ValueForm where
  | absent
  | double (v : List Char) (plain : '"' ∉ v)
  | single (v : List Char) (plain : '\'' ∉ v)
  | bare (v : List Char) (nonempty : v ≠ []) (plain : ∀ c ∈ v, IsBareValueChar c)

namespace ValueForm

/-- The value with its quotes. -/
def written : ValueForm → Option (List Char)
  | absent => none
  | double v _ => some ('"' :: v ++ ['"'])
  | single v _ => some ('\'' :: v ++ ['\''])
  | bare v _ _ => some v

/-- The value without its quotes. -/
def content : ValueForm → Option (List Char)
  | absent => none
  | double v _ | single v _ | bare v _ _ => some v

def text (value : ValueForm) : List Char :=
  match value.written with
  | none => []
  | some v => '=' :: v

end ValueForm

/-- An attribute: a name of word characters, hyphens and colons that does not start with a colon, perhaps with
a colon in front, and what stands behind it. -/
structure Item where
  short : Bool
  first : Char
  others : List Char
  value : ValueForm
  firstPlain : isPlainNameChar first = true
  othersName : ∀ c ∈ others, isNameChar c = true

namespace Item

/-- An attribute as a template has it. -/
def text (a : Item) : List Char :=
  (if a.short then [':'] else []) ++ a.first :: (a.others ++ a.value.text)

/-- The name with the marker for a colon in front. -/
def fullName (a : Item) : List Char :=
  (if a.short then bindMarker else []) ++ a.first :: a.others

/-- The key and the emitted value of an attribute. -/
def entry (a : Item) : List Char × List Char :=
  let n := Text.camelCase a.fullName
  match a.value.content with
  | none => (if bindMarker <+: n then n.drop bindMarker.length else n, "true".toList)
  | some v => if bindMarker <+: n then (n.drop bindMarker.length, v) else (n, literal v)

end Item

/-- White space or nothing stands at the start. -/
def StartsApart (s : List Char) : Prop :=
  ∀ c ∈ s.head?, Text.isBlank c = true

/-- The text is the list of the attributes, each written as `text` says, with white space between them and
perhaps at the ends. -/
inductive Lists (text : Item → List Char) : List Item → List Char → Prop where
  | nil {gap : List Char} (blank : ∀ c ∈ gap, Text.isBlank c = true) : Lists text [] gap
  | cons {gap s : List Char} {a : Item} {items : List Item}
      (blank : ∀ c ∈ gap, Text.isBlank c = true) (rest : Lists text items s) (apart : StartsApart s) :
      Lists text (a :: items) (gap ++ (text a ++ s))

theorem expandRest_of_startsApart (h : StartsApart s) : expandRest s = expandShorthand s := by
  cases s with
  | nil => rfl
  | cons c s => rw [expandShorthand_cons_of_ne (ne_of_isBlank (by decide) (h c rfl))]

theorem StartsApart.expandShorthand (h : StartsApart s) : StartsApart (expandShorthand s) := by
  cases s with
  | nil =>
    have hnil : Attribute.expandShorthand [] = [] := expandRest_nil
    rwa [hnil]
  | cons c s =>
    have hc := h c rfl
    rw [expandShorthand_cons_of_ne (ne_of_isBlank (by decide) hc), expandRest_cons_of_blank hc]
    exact h

/-- Values are kept where colons are written out, whatever stands in their quotes. -/
theorem expandRest_valueText (value : ValueForm) (s : List Char) :
    expandRest (value.text ++ s) = value.text ++ expandRest s := by
  have equals (t : List Char) : expandRest ('=' :: t) = '=' :: expandRest t :=
    expandRest_cons_of_not_blank (by decide) (by decide) (by decide)
  cases value with
  | absent => rfl
  | double v plain =>
    have hrun := expandRest_of_quotedRun? (quotedRun?_quoted (s := s) (.inl rfl) plain)
    simpa [ValueForm.text, ValueForm.written, equals] using hrun
  | single v plain =>
    have hrun := expandRest_of_quotedRun? (quotedRun?_quoted (s := s) (.inr rfl) plain)
    simpa [ValueForm.text, ValueForm.written, equals] using hrun
  | bare v nonempty plain =>
    have hcopied : ∀ c ∈ v, IsCopied c := fun c hc =>
      ⟨(plain c hc).1, (plain c hc).2.1, (plain c hc).2.2.2.2.2⟩
    simp [ValueForm.text, ValueForm.written, equals, expandRest_append_of_isCopied hcopied]

/-- An attribute with its colon written out. -/
def Item.fullText (a : Item) : List Char :=
  a.fullName ++ a.value.text

theorem expandShorthand_text (a : Item) (apart : StartsApart s) :
    expandShorthand (a.text ++ s) = a.fullText ++ expandShorthand s := by
  have hcopied : ∀ c ∈ a.first :: a.others, IsCopied c := by
    intro c hc
    rcases List.mem_cons.1 hc with rfl | hc
    · exact isCopied_of_isNameChar (isNameChar_of_isPlainNameChar a.firstPlain)
    · exact isCopied_of_isNameChar (a.othersName c hc)
  have hbody : expandRest (a.first :: a.others ++ (a.value.text ++ s)) =
      a.first :: a.others ++ (a.value.text ++ expandShorthand s) := by
    rw [expandRest_append_of_isCopied hcopied, expandRest_valueText, expandRest_of_startsApart apart]
  have hcolon : a.first ≠ ':' := by
    intro heq
    exact absurd (heq ▸ a.firstPlain) (by decide)
  cases hshort : a.short with
  | true =>
    have hread := expandShorthand_colon (s := a.others ++ (a.value.text ++ s)) a.firstPlain
    simp only [List.cons_append] at hbody
    simp only [Item.text, Item.fullText, Item.fullName, hshort, if_true, List.nil_append,
      List.cons_append, List.append_assoc]
    rw [hread, hbody]
  | false =>
    simp only [List.cons_append] at hbody
    simp only [Item.text, Item.fullText, Item.fullName, hshort, Bool.false_eq_true, if_false,
      List.nil_append, List.cons_append, List.append_assoc]
    rw [expandShorthand_cons_of_ne hcolon, hbody]

/-- Writing out the colons of a list gives a list of the same attributes. -/
theorem Lists.expandShorthand {items : List Item} (h : Lists Item.text items s) :
    Lists Item.fullText items (expandShorthand s) := by
  induction h with
  | @nil gap blank =>
    have hgap := expandShorthand_append_of_blank (s := []) blank
    have hnil : Attribute.expandShorthand [] = [] := expandRest_nil
    rw [List.append_nil, hnil, List.append_nil] at hgap
    rw [hgap]
    exact .nil blank
  | @cons gap s a items blank rest apart ih =>
    rw [expandShorthand_append_of_blank blank, expandShorthand_text a apart]
    exact .cons blank ih apart.expandShorthand

theorem value?_text (value : ValueForm) (apart : StartsApart s) :
    value? (value.text ++ s) = value.written.map fun v => (v, s) := by
  cases value with
  | absent =>
    show value? s = none
    unfold value?
    split
    · exact absurd (apart '=' rfl) (by decide)
    · rfl
  | double v plain =>
    simp [ValueForm.text, ValueForm.written, value?, quotedRun?_quoted (s := s) (.inl rfl) plain]
  | single v plain =>
    simp [ValueForm.text, ValueForm.written, value?, quotedRun?_quoted (s := s) (.inr rfl) plain]
  | bare v nonempty plain =>
    have hbare : ∀ c ∈ v, isBareChar c = true := fun c hc => by
      simp [isBareChar, (plain c hc).2.2.2.2.1, (plain c hc).2.2.2.2.2]
    have htake : (v ++ s).takeWhile isBareChar = v := by
      rw [List.takeWhile_append_of_pos hbare]
      cases s with
      | nil => simp
      | cons c s => rw [List.takeWhile_cons_of_neg (by simp [isBareChar, apart c rfl]), List.append_nil]
    have hdrop : (v ++ s).dropWhile isBareChar = s := by
      rw [List.dropWhile_append_of_pos hbare]
      cases s with
      | nil => rfl
      | cons c s => rw [List.dropWhile_cons_of_neg (by simp [isBareChar, apart c rfl])]
    cases v with
    | nil => exact absurd rfl nonempty
    | cons c v =>
      have hquoted : quotedRun? (c :: (v ++ s)) = none :=
        quotedRun?_cons_of_ne (plain c (by simp)).1 (plain c (by simp)).2.1
      rw [List.cons_append] at htake hdrop
      simp [ValueForm.text, ValueForm.written, value?, hquoted, htake, hdrop]

/-- What is taken of an attribute. -/
def Item.written (a : Item) : Written :=
  ⟨a.fullName, a.value.written⟩

theorem extract_fullText (a : Item) (apart : StartsApart s) :
    extract (a.fullText ++ s) = a.written :: extract s := by
  have hrest : ∀ d ∈ (a.value.text ++ s).head?, isNameChar d = false := by
    intro d hd
    unfold ValueForm.text at hd
    split at hd
    · cases hname : isNameChar d with
      | false => rfl
      | true =>
        have hblank := apart d hd
        rw [isBlank_of_isNameChar hname] at hblank
        cases hblank
    · cases hd
      decide
  have hname : name? (a.fullText ++ s) = some (a.fullName, a.value.text ++ s) := by
    have hmarker : ∀ d ∈ "ind:".toList ++ a.first :: a.others, isNameChar d = true := by
      intro d hd
      rcases List.mem_append.1 hd with hd | hd
      · exact List.all_eq_true.1 (by decide) d hd
      · rcases List.mem_cons.1 hd with rfl | hd
        · exact isNameChar_of_isPlainNameChar a.firstPlain
        · exact a.othersName d hd
    have bindStart : isPlainNameChar 'b' = true := by decide
    cases hshort : a.short with
    | true =>
      have hread := name?_cons_append bindStart hmarker hrest
      have hmark : bindMarker = 'b' :: "ind:".toList := rfl
      simpa [Item.fullText, Item.fullName, hshort, hmark] using hread
    | false =>
      have hread := name?_cons_append a.firstPlain a.othersName hrest
      simpa [Item.fullText, Item.fullName, hshort] using hread
  have hvalue := value?_text a.value apart
  unfold Item.written
  cases hwritten : a.value.written with
  | none =>
    rw [hwritten] at hvalue
    have hempty : a.value.text = [] := by simp [ValueForm.text, hwritten]
    rw [extract_of_bare hname hvalue, hempty, List.nil_append]
  | some v =>
    rw [hwritten] at hvalue
    exact extract_of_value? hname hvalue

theorem Lists.extract {items : List Item} (h : Lists Item.fullText items s) :
    extract s = items.map Item.written := by
  induction h with
  | @nil gap blank =>
    have hgap := extract_append_of_blank (s := []) blank
    rw [List.append_nil, extract_nil] at hgap
    exact hgap
  | @cons gap s a items blank rest apart ih =>
    rw [extract_append_of_blank blank, extract_fullText a apart, ih, List.map_cons]

/-- White space in front of attributes makes no difference. -/
theorem parse_append_of_blank {gap : List Char} (h : ∀ c ∈ gap, Text.isBlank c = true) :
    parse (gap ++ s) = parse s := by
  rw [parse, parse, expandShorthand_append_of_blank h, extract_append_of_blank h]

/-! ## Entries -/

theorem afterFirst_bindMarker (s : List Char) : Text.afterFirst bindMarker (bindMarker ++ s) = s := by
  have hmark : bindMarker = 'b' :: "ind:".toList := rfl
  have hcut : Text.cutAt? bindMarker (bindMarker ++ s) = some ([], s) := by
    have hliteral : Text.afterLiteral bindMarker (bindMarker ++ s) = some s :=
      Text.afterLiteral_eq_some_iff.2 rfl
    rw [hmark, List.cons_append] at hliteral ⊢
    rw [Text.cutAt?, hliteral]
  rw [Text.afterFirst, hcut]

theorem unquote_of_bare (h : ∀ c ∈ v, IsBareValueChar c) : unquote v = v := by
  unfold unquote
  split
  · rename_i c rest
    obtain ⟨hdouble, hsingle, -⟩ := h c (by simp)
    simp [hdouble, hsingle]
  · rfl

theorem ValueForm.content_eq (value : ValueForm) : value.content = value.written.map unquote := by
  cases value with
  | absent => rfl
  | double v plain => exact congrArg some (unquote_quoted (.inl rfl) v).symm
  | single v plain => exact congrArg some (unquote_quoted (.inr rfl) v).symm
  | bare v nonempty plain => exact congrArg some (unquote_of_bare plain).symm

/-- The marker of a bound attribute is cut off its name. -/
theorem Written.entry_eq (name : List Char) (value : Option (List Char)) :
    (Written.mk name value).entry =
      match value with
      | none =>
        (if bindMarker <+: Text.camelCase name then (Text.camelCase name).drop bindMarker.length
          else Text.camelCase name, "true".toList)
      | some v =>
        if bindMarker <+: Text.camelCase name then
          ((Text.camelCase name).drop bindMarker.length, unquote v)
        else (Text.camelCase name, literal (unquote v)) := by
  have hmarked {n : List Char} : bindMarker.isPrefixOf n = true ↔ bindMarker <+: n :=
    List.isPrefixOf_iff_prefix
  simp only [Written.entry]
  generalize Text.camelCase name = n
  by_cases hbound : bindMarker <+: n
  · obtain ⟨r, rfl⟩ := hbound
    have hprefix : bindMarker.isPrefixOf (bindMarker ++ r) = true := hmarked.2 (List.prefix_append _ _)
    cases value <;> simp [Text.withStart, hprefix, afterFirst_bindMarker]
  · have hprefix : bindMarker.isPrefixOf n = false := Bool.eq_false_iff.2 (mt hmarked.1 hbound)
    cases value <;> simp [Text.withStart, hprefix, afterFirst_bindMarker, hbound]

/-- The entry of an attribute is the one of what is taken of it. -/
theorem Item.entry_written (a : Item) : a.written.entry = a.entry := by
  rw [Item.written, Written.entry_eq, Item.entry, a.value.content_eq]
  cases a.value.written <;> rfl

/-- The entry as it stands in a list of attributes that was read. -/
def Item.emitted (a : Item) : String × String :=
  (String.ofList a.entry.1, String.ofList a.entry.2)

theorem parse_eq_ofList {items : List Item} (h : Lists Item.text items s) :
    parse s = Assoc.ofList (items.map Item.emitted) := by
  rw [parse, h.expandShorthand.extract, List.map_map]
  simp only [Function.comp_def, Item.entry_written]
  rfl

/-- A name with a value in double quotes. -/
def quotedText (name v : List Char) : List Char :=
  name ++ '=' :: '"' :: (v ++ ['"'])

/-- One attribute gives one entry. -/
theorem parse_quotedText (hname : ∀ c ∈ name, isPlainNameChar c = true) (hne : name ≠ [])
    (hv : '"' ∉ v) :
    parse (quotedText name v) =
      [(String.ofList (Written.mk name (some ('"' :: v ++ ['"']))).entry.1,
        String.ofList (Written.mk name (some ('"' :: v ++ ['"']))).entry.2)] := by
  cases name with
  | nil => exact absurd rfl hne
  | cons c name =>
    let a : Item := ⟨false, c, name, .double v hv, hname c (by simp), fun d hd =>
      isNameChar_of_isPlainNameChar (hname d (by simp [hd]))⟩
    have empty : Lists Item.text [] [] := .nil (List.forall_mem_nil _)
    have lists : Lists Item.text [a] ([] ++ (a.text ++ [])) :=
      .cons (List.forall_mem_nil _) empty (fun d hd => nomatch hd)
    have htext : [] ++ (a.text ++ []) = quotedText (c :: name) v := by
      simp [a, Item.text, ValueForm.text, ValueForm.written, quotedText]
    have hentry : (Written.mk (c :: name) (some ('"' :: v ++ ['"']))).entry = a.entry := a.entry_written
    rw [htext] at lists
    rw [parse_eq_ofList lists, hentry]
    rfl

/-- A list of attributes is read by writing one entry per attribute, in order: a key stands where it first
came, with its last value. -/
theorem parse_of_lists {items : List Item} (h : Lists Item.text items s) :
    parse s = items.foldl (fun m a => Assoc.insert m a.emitted.1 a.emitted.2) [] ∧
      Assoc.keys (parse s) = (items.map (·.emitted.1)).eraseDups ∧
      ∀ key, Assoc.get? (parse s) key = Assoc.get? (items.map Item.emitted).reverse key := by
  rw [parse_eq_ofList h]
  refine ⟨?_, ?_, Assoc.get?_ofList _⟩
  · rw [Assoc.ofList, Assoc.insertAll, List.foldl_map]
  · rw [Assoc.keys_ofList, Assoc.keys, List.map_map]
    rfl

/-- Attributes of all forms, with quotes of the other kind, white space and a colon in their values. -/
def sampleItems : List Item :=
  [⟨false, 't', "itle".toList, .double "it's :x".toList (by decide), by decide,
      List.all_eq_true.1 (by decide +kernel)⟩,
    ⟨true, 'd', "ata-id".toList, .single "\"a b\" > 1".toList (by decide), by decide,
      List.all_eq_true.1 (by decide +kernel)⟩,
    ⟨false, 'o', "n".toList, .absent, by decide, List.all_eq_true.1 (by decide +kernel)⟩,
    ⟨false, 't', "itle".toList, .bare ['1'] (by decide) (List.forall_mem_singleton.2 (by decide)), by decide,
      List.all_eq_true.1 (by decide +kernel)⟩]

/-- A name that comes twice keeps its place and takes its last value. -/
theorem parse_of_lists_of_sample :
    Lists Item.text sampleItems " title=\"it's :x\" :data-id='\"a b\" > 1'\n\ton title=1".toList ∧
      parse " title=\"it's :x\" :data-id='\"a b\" > 1'\n\ton title=1".toList =
        sampleItems.foldl (fun m a => Assoc.insert m a.emitted.1 a.emitted.2) [] ∧
      sampleItems.foldl (fun m a => Assoc.insert m a.emitted.1 a.emitted.2) [] =
        [("title", "'1'"), ("dataId", "\"a b\" > 1"), ("on", "true")] := by
  have apart {c : Char} {s : List Char} (hc : Text.isBlank c = true) : StartsApart (c :: s) :=
    fun d hd => by cases hd; exact hc
  have last : Lists Item.text [] [] := .nil (List.forall_mem_nil _)
  have space : ∀ c ∈ [' '], Text.isBlank c = true := List.all_eq_true.1 (by decide)
  have feed : ∀ c ∈ ['\n', '\t'], Text.isBlank c = true := List.all_eq_true.1 (by decide)
  have lists : Lists Item.text sampleItems
      " title=\"it's :x\" :data-id='\"a b\" > 1'\n\ton title=1".toList :=
    .cons space
      (.cons space
        (.cons feed (.cons space last (fun c hc => nomatch hc)) (apart (by decide)))
        (apart (by decide)))
      (apart (by decide))
  exact ⟨lists, (parse_of_lists lists).1, by decide +kernel⟩

end ComponentTags.Attribute
