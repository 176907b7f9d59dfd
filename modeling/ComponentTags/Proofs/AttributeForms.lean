import ComponentTags.Proofs.AttributeList
import ComponentTags.Proofs.CamelCase

/-!
# The forms of an attribute

An attribute is written as a literal, bound with a colon, bound with the marker or bare. The four forms of one
name have one key, if the name starts small: then a later form overwrites an earlier one in its place. Where
the name starts with a capital, or with separators and a letter behind them, the two bound forms keep a capital
that the others lose, and the attribute has two keys.
-/

namespace ComponentTags.Attribute

variable {n v w s s' : List Char} {c : Char}

/-! ## Lists next to each other -/

theorem Lists.blank_append {text : Item → List Char} {items : List Item} {gap : List Char}
    (blank : ∀ c ∈ gap, Text.isBlank c = true) (h : Lists text items s) : Lists text items (gap ++ s) := by
  have joined {gap' : List Char} (blank' : ∀ c ∈ gap', Text.isBlank c = true) :
      ∀ c ∈ gap ++ gap', Text.isBlank c = true := fun c hc =>
    (List.mem_append.1 hc).elim (blank c) (blank' c)
  cases h with
  | nil blank' => exact .nil (joined blank')
  | cons blank' rest apart =>
    rw [← List.append_assoc]
    exact .cons (joined blank') rest apart

/-- Two lists with white space between them are one list. -/
theorem Lists.append {text : Item → List Char} {items others : List Item} (h : Lists text items s)
    (h' : Lists text others s') (hc : Text.isBlank c = true) :
    Lists text (items ++ others) (s ++ c :: s') := by
  induction h with
  | nil blank =>
    rw [List.append_cons]
    refine h'.blank_append fun d hd => ?_
    rcases List.mem_append.1 hd with hd | hd
    · exact blank d hd
    · rw [List.mem_singleton.1 hd]
      exact hc
  | @cons gap s a items blank rest apart ih =>
    rw [List.append_assoc, List.append_assoc, List.cons_append]
    refine .cons blank ih fun d hd => ?_
    cases s with
    | nil =>
      cases hd
      exact hc
    | cons e s => exact apart d hd

theorem Lists.single (text : Item → List Char) (a : Item) : Lists text [a] (text a) := by
  have empty : Lists text [] [] := .nil (List.forall_mem_nil _)
  have lists : Lists text [a] ([] ++ (text a ++ [])) :=
    .cons (List.forall_mem_nil _) empty (fun d hd => nomatch hd)
  rwa [List.nil_append, List.append_nil] at lists

/-! ## Entries of names -/

/-- An attribute with the marker has the rest of its name as its key, and its value as it is. -/
theorem Written.entry_of_marker {a : Written} (h : a.name = bindMarker ++ n) :
    a.entry = (Text.continuedCase n, (a.value.map unquote).getD "true".toList) := by
  have hdrop : (bindMarker ++ Text.continuedCase n).drop bindMarker.length = Text.continuedCase n :=
    List.drop_left
  obtain ⟨name, value⟩ := a
  simp only at h
  rw [Written.entry_eq, h, camelCase_bindMarker_append]
  cases value <;> simp [hdrop]

/-- An attribute of which no marker comes has its name as its key, and its value as a literal. -/
theorem Written.entry_of_unbound {a : Written} (h : ¬ bindMarker <+: Text.camelCase a.name) :
    a.entry = (Text.camelCase a.name,
      match a.value with
      | none => "true".toList
      | some v => literal (unquote v)) := by
  obtain ⟨name, value⟩ := a
  rw [Written.entry_eq]
  cases value <;> simp [h]

theorem Item.entry_of_marked {a : Item} (h : a.fullName = bindMarker ++ n) :
    a.entry = (Text.continuedCase n, a.value.content.getD "true".toList) := by
  rw [← a.entry_written, Written.entry_of_marker (a := a.written) h, a.value.content_eq]
  rfl

/-- ASCII letters and digits, hyphens and underscores. -/
def IsSimpleChar (c : Char) : Prop :=
  c.isAlphanum = true ∨ c = '-' ∨ c = '_'

instance (c : Char) : Decidable (IsSimpleChar c) :=
  inferInstanceAs (Decidable (_ ∨ _ ∨ _))

theorem IsSimpleChar.isTagChar (h : IsSimpleChar c) : isTagChar c = true := by
  rcases h with h | rfl | rfl
  · simp [ComponentTags.isTagChar, h]
  · decide
  · decide

theorem IsSimpleChar.ne_colon (h : IsSimpleChar c) : c ≠ ':' := by
  rintro rfl
  rcases h with h | h | h <;> exact absurd h (by decide)

theorem IsSimpleChar.toNat_lt (h : IsSimpleChar c) : c.toNat < 128 := toNat_lt_of_isTagChar h.isTagChar

/-- The characters are those of names, and so are their capital and small forms, checked one by one. -/
theorem IsSimpleChar.forms (h : IsSimpleChar c) :
    Attribute.isPlainNameChar c = true ∧ IsSimpleChar c.toUpper ∧ IsSimpleChar c.toLower := by
  have all : ∀ n < 128, IsSimpleChar (Char.ofNat n) →
      Attribute.isPlainNameChar (Char.ofNat n) = true ∧ IsSimpleChar (Char.ofNat n).toUpper ∧
        IsSimpleChar (Char.ofNat n).toLower := by
    decide +kernel
  have hc := all c.toNat h.toNat_lt
  rw [Char.ofNat_toNat] at hc
  exact hc h

theorem IsSimpleChar.isPlainNameChar (h : IsSimpleChar c) : isPlainNameChar c = true := h.forms.1

/-- No marker comes out of a name without a colon. -/
theorem Item.entry_of_unmarked {a : Item} (h : ∀ c ∈ a.fullName, IsSimpleChar c) :
    a.entry = (Text.camelCase a.fullName,
      match a.value.content with
      | none => "true".toList
      | some v => literal v) := by
  have simple : ∀ c ∈ Text.camelCase a.fullName, IsSimpleChar c := by
    refine Text.of_mem_camelCase (fun c hc d hd => ?_) (fun c hc d hd => ?_) fun c hc _ => h c hc
    · rw [Text.upperChar, if_pos hc.toNat_lt] at hd
      rw [List.mem_singleton.1 hd]
      exact hc.forms.2.1
    · rw [Text.lowerChar, if_pos hc.toNat_lt] at hd
      rw [List.mem_singleton.1 hd]
      exact hc.forms.2.2
  have hunbound : ¬ bindMarker <+: Text.camelCase a.fullName := fun hstart =>
    (simple ':' (hstart.subset (by decide))).ne_colon rfl
  rw [← a.entry_written, Written.entry_of_unbound (a := a.written) hunbound, a.value.content_eq]
  cases hwritten : a.value.written <;> simp [Item.written, hwritten]

/-! ## The four forms -/

/-- How an attribute is written. -/
inductive Form where
  | literal | shorthand | explicit | bare
  deriving DecidableEq, Repr

namespace Form

/-- The attribute of a name, with a value in double quotes unless it is bare. -/
def text (f : Form) (n v : List Char) : List Char :=
  match f with
  | literal => quotedText n v
  | shorthand => ':' :: quotedText n v
  | explicit => bindMarker ++ quotedText n v
  | bare => n

/-- The key of an attribute in a form. -/
def key (f : Form) (n : List Char) : List Char :=
  match f with
  | literal | bare => Text.camelCase n
  | shorthand | explicit => Text.continuedCase n

/-- What is emitted for an attribute in a form. -/
def value (f : Form) (v : List Char) : List Char :=
  match f with
  | literal => Attribute.literal v
  | shorthand | explicit => v
  | bare => "true".toList

/-- Each form is an attribute of the grammar. -/
theorem exists_item (f : Form) (chars : ∀ c ∈ n, IsSimpleChar c) (hne : n ≠ []) (hv : '"' ∉ v) :
    ∃ a : Item, a.text = f.text n v ∧ a.entry = (f.key n, f.value v) := by
  cases n with
  | nil => exact absurd rfl hne
  | cons c n =>
    have first : isPlainNameChar c = true := (chars c (by simp)).isPlainNameChar
    have others : ∀ d ∈ n, isNameChar d = true := fun d hd =>
      isNameChar_of_isPlainNameChar (chars d (by simp [hd])).isPlainNameChar
    have mark : ∀ d ∈ "ind:".toList, isNameChar d = true := List.all_eq_true.1 (by decide)
    have marked : ∀ d ∈ "ind:".toList ++ c :: n, isNameChar d = true := by
      intro d hd
      rcases List.mem_append.1 hd with hd | hd
      · exact mark d hd
      · rcases List.mem_cons.1 hd with rfl | hd
        · exact isNameChar_of_isPlainNameChar first
        · exact others d hd
    cases f with
    | literal =>
      let a : Item := ⟨false, c, n, .double v hv, first, others⟩
      exact ⟨a, by simp [a, Item.text, text, ValueForm.text, ValueForm.written, quotedText],
        Item.entry_of_unmarked (a := a) chars⟩
    | shorthand =>
      let a : Item := ⟨true, c, n, .double v hv, first, others⟩
      exact ⟨a, by simp [a, Item.text, text, ValueForm.text, ValueForm.written, quotedText],
        Item.entry_of_marked (a := a) rfl⟩
    | explicit =>
      let a : Item := ⟨false, 'b', "ind:".toList ++ c :: n, .double v hv, by decide, marked⟩
      have hmark : bindMarker = 'b' :: "ind:".toList := rfl
      exact ⟨a, by simp [a, Item.text, text, ValueForm.text, ValueForm.written, quotedText, hmark],
        Item.entry_of_marked (a := a) rfl⟩
    | bare =>
      let a : Item := ⟨false, c, n, .absent, first, others⟩
      exact ⟨a, by simp [a, Item.text, text, ValueForm.text, ValueForm.written],
        Item.entry_of_unmarked (a := a) chars⟩

/-- The forms of a name have one key exactly if the name starts small. -/
theorem key_eq_iff (chars : ∀ c ∈ n, IsSimpleChar c) (proper : ∃ c ∈ n, c.isAlphanum = true) :
    ((∀ f : Form, f.key n = Text.camelCase n) ↔ Text.StartsSmall n) ∧
      (¬ Text.StartsSmall n → shorthand.key n = Text.studlyCase n ∧ explicit.key n = Text.studlyCase n) := by
  have separated : ∀ c ∈ n, c.isAlphanum = true ∨ Text.isSeparator c = true := by
    intro c hc
    rcases chars c hc with h | rfl | rfl
    · exact .inl h
    · exact .inr rfl
    · exact .inr rfl
  obtain ⟨hsame, hother⟩ := Text.continuedCase_eq separated proper
  refine ⟨⟨fun h => hsame.1 (h .shorthand), fun h f => ?_⟩, fun h => ⟨hother h, hother h⟩⟩
  cases f with
  | literal | bare => rfl
  | shorthand | explicit => exact hsame.2 h

end Form

/-- An attribute at the end of a list is written into what the list in front of it gives. -/
theorem parse_append {items : List Item} {a : Item} (h : Lists Item.text items s) :
    parse (s ++ ' ' :: a.text) = Assoc.insert (parse s) a.emitted.1 a.emitted.2 := by
  have space : Text.isBlank ' ' = true := by decide
  rw [parse_eq_ofList (h.append (Lists.single Item.text a) space), parse_eq_ofList h, List.map_append,
    Assoc.ofList, Assoc.insertAll, List.foldl_append]
  rfl

/-- The key of each form of a name is its camel case, unless the name starts with a capital or with separators
and a letter: then the bound forms keep a capital. Where two forms have one key, the later one overwrites the
earlier one in its place. -/
theorem parse_forms (chars : ∀ c ∈ n, IsSimpleChar c) (proper : ∃ c ∈ n, c.isAlphanum = true)
    (hv : '"' ∉ v) (hw : '"' ∉ w) :
    (∀ f : Form, parse (f.text n v) = [(String.ofList (f.key n), String.ofList (f.value v))]) ∧
    ((∀ f : Form, f.key n = Text.camelCase n) ↔ Text.StartsSmall n) ∧
    (¬ Text.StartsSmall n →
      ∀ f : Form, f.key n = if f = .shorthand ∨ f = .explicit then Text.studlyCase n else Text.camelCase n) ∧
    ∀ (f g : Form) (front middle : List Char) (items others : List Item),
      Lists Item.text items front → Lists Item.text others middle → f.key n = g.key n →
      Assoc.keys (parse (front ++ ' ' :: (f.text n v ++ ' ' :: middle) ++ ' ' :: g.text n w)) =
          Assoc.keys (parse (front ++ ' ' :: (f.text n v ++ ' ' :: middle))) ∧
        ∀ key, Assoc.get? (parse (front ++ ' ' :: (f.text n v ++ ' ' :: middle) ++ ' ' :: g.text n w)) key =
          if String.ofList (g.key n) = key then some (String.ofList (g.value w))
          else Assoc.get? (parse (front ++ ' ' :: (f.text n v ++ ' ' :: middle))) key := by
  have hne : n ≠ [] := by
    rintro rfl
    obtain ⟨c, hc, -⟩ := proper
    cases hc
  obtain ⟨hsame, hother⟩ := Form.key_eq_iff chars proper
  have space : Text.isBlank ' ' = true := by decide
  refine ⟨fun f => ?_, hsame, fun h f => ?_, fun f g front middle items others hfront hmiddle hkey => ?_⟩
  · obtain ⟨a, htext, hentry⟩ := f.exists_item chars hne hv
    rw [← htext, parse_eq_ofList (Lists.single Item.text a), List.map_singleton, Item.emitted, hentry]
    rfl
  · cases f with
    | literal | bare => rfl
    | shorthand => exact (hother h).1
    | explicit => exact (hother h).2
  · obtain ⟨a, htext, hentry⟩ := f.exists_item chars hne hv
    obtain ⟨b, htext', hentry'⟩ := g.exists_item chars hne hw
    have lists := hfront.append ((Lists.single Item.text a).append hmiddle space) space
    have present : b.emitted.1 ∈ Assoc.keys (parse (front ++ ' ' :: (a.text ++ ' ' :: middle))) := by
      rw [parse_eq_ofList lists, Assoc.keys_ofList]
      simp [Assoc.keys, Item.emitted, hentry, hentry', hkey]
    have hb : b.emitted = (String.ofList (g.key n), String.ofList (g.value w)) := by
      rw [Item.emitted, hentry']
    rw [← htext, ← htext', parse_append lists]
    refine ⟨?_, fun key => ?_⟩
    · rw [Assoc.keys_insert, if_pos present]
    · rw [Assoc.get?_insert, hb]

/-- A bound attribute overwrites a literal one, in front of an attribute that stays behind it. -/
theorem parse_forms_of_data_id :
    (∀ c ∈ "data-id".toList, IsSimpleChar c) ∧ (∃ c ∈ "data-id".toList, c.isAlphanum = true) ∧
      '"' ∉ ['1'] ∧ '"' ∉ ['2'] ∧ Text.StartsSmall "data-id".toList ∧
      Lists Item.text [] [] ∧ Lists Item.text [] "\t".toList ∧
      Assoc.keys (parse " data-id=\"1\" \t :data-id=\"2\"".toList) = ["dataId"] ∧
      Assoc.get? (parse " data-id=\"1\" \t :data-id=\"2\"".toList) "dataId" = some "2" := by
  have all : ("data-id".toList.all fun c => decide (IsSimpleChar c)) = true := by decide
  have chars : ∀ c ∈ "data-id".toList, IsSimpleChar c := fun c hc =>
    of_decide_eq_true (List.all_eq_true.1 all c hc)
  have proper : ∃ c ∈ "data-id".toList, c.isAlphanum = true := ⟨'d', by decide, by decide⟩
  have first : '"' ∉ ['1'] := by decide
  have second : '"' ∉ ['2'] := by decide
  have front : Lists Item.text [] [] := .nil (List.forall_mem_nil _)
  have middle : Lists Item.text [] "\t".toList := .nil (List.forall_mem_singleton.2 (by decide))
  have starts : Text.StartsSmall "data-id".toList := .inl ⟨'d', rfl, rfl⟩
  obtain ⟨-, small, -, overwrites⟩ := parse_forms chars proper first second
  have same : Form.literal.key "data-id".toList = Form.shorthand.key "data-id".toList :=
    (small.2 starts .literal).trans (small.2 starts .shorthand).symm
  obtain ⟨hkeys, hvalue⟩ := overwrites .literal .shorthand [] "\t".toList [] [] front middle same
  have before : Assoc.keys (parse " data-id=\"1\" \t".toList) = ["dataId"] := by decide +kernel
  have key : String.ofList (Form.shorthand.key "data-id".toList) = "dataId" := by decide +kernel
  exact ⟨chars, proper, first, second, starts, front, middle, hkeys.trans before,
    (hvalue "dataId").trans (if_pos key)⟩

/-- A name that starts with a capital has a small key as a literal and a key with a capital as a bound
attribute. -/
theorem parse_forms_of_capital :
    Text.camelCase "Foo".toList = "foo".toList ∧
      parse "Foo=\"a\" :Foo=\"b\"".toList = [("foo", "'a'"), ("Foo", "b")] ∧
      parse "bind:-x=\"1\" -x".toList = [("X", "1"), ("x", "true")] := by
  decide +kernel

end ComponentTags.Attribute
