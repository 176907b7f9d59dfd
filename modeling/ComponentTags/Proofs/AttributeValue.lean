import ComponentTags.Proofs.AttributeKey
import ComponentTags.Proofs.TagHead

/-!
# Values of attributes

What reading attributes does to a value: the quotes around it go, the shorthand in front of a name is
written out, and a literal gets a backslash before each single quote. None of this puts a tag together: a
head that stands in an emitted value stood in the text that was read, unless it holds the marker that the
shorthand is written out to.
-/

namespace ComponentTags

namespace Attribute

variable {s t part head rest : List Char}

/-! ## Reading -/

theorem isNameChar_of_mem_name? {name : List Char} (h : name? s = some (name, rest)) :
    ∀ c ∈ name, isNameChar c = true := by
  have plain {c : Char} (hc : isPlainNameChar c = true) : isNameChar c = true := by
    simp [isNameChar, hc]
  have run {c : Char} {s : List Char} (hc : isPlainNameChar c = true) :
      ∀ d ∈ c :: s.takeWhile isNameChar, isNameChar d = true := by
    intro d hd
    rcases List.mem_cons.1 hd with rfl | hd
    · exact plain hc
    · exact List.all_eq_true.1 List.all_takeWhile d hd
  unfold name? at h
  split at h
  · split at h
    · rename_i c s hc
      cases h
      intro d hd
      rcases List.mem_cons.1 hd with rfl | hd
      · decide
      · exact run hc d hd
    · cases h
  · split at h
    · rename_i hc
      cases h
      exact run hc
    · cases h
  · cases h

/-- Taking the quotes off leaves a part that the closing quote, or nothing, ends. -/
theorem standsIn_unquote (value : List Char) : StandsIn (unquote value) value := by
  unfold unquote
  split
  · rename_i c inner
    split
    · rename_i hquotes
      rw [Bool.and_eq_true, Bool.or_eq_true, beq_iff_eq, beq_iff_eq, beq_iff_eq] at hquotes
      obtain ⟨hc, hlast⟩ := hquotes
      obtain ⟨front, rfl⟩ := List.getLast?_eq_some_iff.1 hlast
      refine ⟨[c], [c], by simp, ?_⟩
      rcases hc with rfl | rfl <;> rfl
    · exact .refl _
  · exact .refl _

theorem quotedRun?_eq_some {run : List Char} (h : quotedRun? s = some (run, rest)) :
    ∃ quote inner, (quote = '"' ∨ quote = '\'') ∧ quote ∉ inner ∧ s = quote :: inner ++ quote :: rest ∧
      run = quote :: inner ++ [quote] := by
  cases s with
  | nil => cases h
  | cons c s =>
    simp only [quotedRun?] at h
    split at h
    · rename_i hc
      obtain ⟨⟨inner, r⟩, hclose, heq⟩ := Option.map_eq_some_iff.1 h
      cases heq
      obtain ⟨rfl, hplain⟩ := closeQuote?_eq_some hclose
      simp only [Bool.or_eq_true, decide_eq_true_eq] at hc
      exact ⟨c, inner, hc, hplain, rfl, rfl⟩
    · cases h

theorem quotedRun?_cons_of_ne {c : Char} (hdouble : c ≠ '"') (hsingle : c ≠ '\'') :
    quotedRun? (c :: s) = none := by
  simp [quotedRun?, hdouble, hsingle]

theorem closeQuote?_append {quote : Char} {v : List Char} (h : quote ∉ v) :
    closeQuote? quote (v ++ quote :: s) = some (v, s) := by
  induction v with
  | nil => simp [closeQuote?]
  | cons d v ih =>
    rw [List.mem_cons, not_or] at h
    simp [closeQuote?, Ne.symm h.1, ih h.2]

theorem quotedRun?_quoted {quote : Char} {v : List Char} (hquote : quote = '"' ∨ quote = '\'')
    (h : quote ∉ v) : quotedRun? (quote :: (v ++ quote :: s)) = some (quote :: v ++ [quote], s) := by
  simp [quotedRun?, closeQuote?_append h, hquote]

theorem unquote_quoted {quote : Char} (hquote : quote = '"' ∨ quote = '\'') (inner : List Char) :
    unquote (quote :: inner ++ [quote]) = inner := by
  simp [unquote, hquote]

/-- White space or the end of a tag follows a bare value. -/
theorem endsName_dropWhile_isBareChar (s : List Char) :
    Markup.endsName (s.dropWhile isBareChar) = true := by
  have hhead := List.head?_dropWhile_not isBareChar s
  cases hrest : s.dropWhile isBareChar with
  | nil => rfl
  | cons c r =>
    rw [hrest] at hhead
    simp only [List.head?_cons, isBareChar, Bool.and_eq_false_iff, Bool.not_eq_false',
      bne_eq_false_iff_eq] at hhead
    rcases hhead with hblank | rfl
    · simp [Markup.endsName, continuesName_of_isBlank hblank]
    · rfl

theorem standsIn_of_value? {value : List Char} (h : value? s = some (value, rest)) :
    StandsIn (unquote value) s := by
  unfold value? at h
  split at h
  · rename_i s
    split at h
    · rename_i result hquoted
      cases h
      obtain ⟨quote, inner, hquote, -, rfl, rfl⟩ := quotedRun?_eq_some hquoted
      rw [unquote_quoted hquote]
      refine ⟨['=', quote], quote :: rest, by simp, ?_⟩
      rcases hquote with rfl | rfl <;> rfl
    · split at h
      · cases h
      · cases h
        exact (standsIn_unquote _).trans
          ⟨['='], s.dropWhile isBareChar, by simp, endsName_dropWhile_isBareChar s⟩
  · cases h

/-- Each attribute that is read consists of a name and a value from the text. -/
theorem of_mem_extract {a : Written} (h : a ∈ extract s) :
    (∀ c ∈ a.name, isNameChar c = true) ∧ ∀ v, a.value = some v → StandsIn (unquote v) s := by
  fun_induction extract s with
  | case1 s name rest hname value rest' hvalue ih =>
    have hs := (name?_append hname).1
    have hrest : rest <:+ s := ⟨name, hs.symm⟩
    have hrest' : rest' <:+ rest := ⟨'=' :: value, (value?_append hvalue).symm⟩
    rcases List.mem_cons.1 h with rfl | h
    · refine ⟨isNameChar_of_mem_name? hname, fun v hv => ?_⟩
      cases hv
      exact (standsIn_of_value? hvalue).trans (.of_isSuffix hrest)
    · obtain ⟨hchars, hstands⟩ := ih h
      exact ⟨hchars, fun v hv => (hstands v hv).trans (.of_isSuffix (hrest'.trans hrest))⟩
  | case2 s name rest hname hvalue ih =>
    have hrest : rest <:+ s := ⟨name, (name?_append hname).1.symm⟩
    rcases List.mem_cons.1 h with rfl | h
    · exact ⟨isNameChar_of_mem_name? hname, fun v hv => nomatch hv⟩
    · obtain ⟨hchars, hstands⟩ := ih h
      exact ⟨hchars, fun v hv => (hstands v hv).trans (.of_isSuffix hrest)⟩
  | case3 => cases h
  | case4 c s hname ih =>
    obtain ⟨hchars, hstands⟩ := ih h
    exact ⟨hchars, fun v hv => (hstands v hv).trans (.of_isSuffix (List.suffix_cons c s))⟩

theorem exists_of_mem_parse {key value : String} (h : (key, value) ∈ parse s) :
    ∃ a ∈ extract (expandShorthand s), key.toList = a.entry.1 ∧ value.toList = a.entry.2 := by
  obtain ⟨a, ha, heq⟩ := List.mem_map.1 (Assoc.mem_of_mem_ofList h)
  cases heq
  exact ⟨a, ha, by simp, by simp⟩

theorem isKeyChar_of_mem_key {key value : String} (h : (key, value) ∈ parse s) :
    ∀ c ∈ key.toList, Text.isKeyChar c = true := by
  obtain ⟨a, ha, hkey, -⟩ := exists_of_mem_parse h
  intro c hc
  rw [hkey] at hc
  exact isKeyChar_of_mem_entry (of_mem_extract ha).1 c hc

/-! ## Literals -/

/-- The text of a literal between its quotes. -/
def escape (value : List Char) : List Char :=
  value.flatMap fun c => if c = '\'' then ['\\', '\''] else [c]

theorem literal_eq (value : List Char) : literal value = '\'' :: (escape value ++ ['\'']) := rfl

theorem escape_append (u v : List Char) : escape (u ++ v) = escape u ++ escape v := by
  simp [escape]

theorem escape_of_not_mem {value : List Char} (h : '\'' ∉ value) : escape value = value := by
  induction value with
  | nil => rfl
  | cons c value ih =>
    rw [List.mem_cons, not_or] at h
    simp only [escape, List.flatMap_cons, if_neg (Ne.symm h.1)]
    exact congrArg (c :: ·) (ih h.2)

/-- No head reaches across an escaped quote. -/
theorem standsIn_of_escape (hhead : HeadLike head) (value : List Char)
    (h : StandsIn head (escape value)) : StandsIn head value := by
  by_cases hquote : '\'' ∈ value
  · obtain ⟨u, v, hvalue⟩ := List.append_of_mem hquote
    have hesc : escape value = escape u ++ '\\' :: ('\'' :: escape v) := by
      rw [hvalue, escape_append]
      simp [escape]
    rw [hesc] at h
    rcases hhead.or_of_append_cons (by decide) h with h | h
    · rw [hvalue]
      exact (standsIn_of_escape hhead u h).of_left (by decide)
    · rw [hvalue]
      have hv := standsIn_of_escape hhead v (hhead.of_cons_of_ne (by decide) h)
      exact hv.trans (.of_isSuffix ⟨u ++ ['\''], by simp⟩)
  · rwa [escape_of_not_mem hquote] at h
termination_by value.length
decreasing_by
  all_goals
    rw [hvalue]
    simp only [List.length_append, List.length_cons]
    omega

theorem standsIn_of_literal (hhead : HeadLike head) {value : List Char}
    (h : StandsIn head (literal value)) : StandsIn head value := by
  have hmark : isHeadChar '\'' = false := by decide
  rw [literal_eq] at h
  rcases hhead.or_of_append_cons hmark (hhead.of_cons_of_ne (by decide) h) with h | h
  · exact standsIn_of_escape hhead value h
  · exact absurd h (hhead.not_of_not_mem List.not_mem_nil)

/-! ## The shorthand -/

/-- The second text is the first one with some colons written out to the marker of bound attributes. -/
inductive Expanded : List Char → List Char → Prop where
  | nil : Expanded [] []
  | cons (c : Char) {s t : List Char} (rest : Expanded s t) : Expanded (c :: s) (c :: t)
  | mark {s t : List Char} (rest : Expanded s t) : Expanded (':' :: s) (bindMarker ++ t)

namespace Expanded

theorem append_left (u : List Char) (h : Expanded s t) : Expanded (u ++ s) (u ++ t) := by
  induction u with
  | nil => exact h
  | cons c u ih => exact .cons c ih

/-- What an expanded text starts with started the text before, unless the marker is part of it. -/
theorem eq_append {after : List Char} (h : Expanded s t) (hmark : ¬ bindMarker <:+: part)
    (ht : t = part ++ after) (hafter : Markup.endsName after = true) :
    ∃ rest, s = part ++ rest ∧ Markup.endsName rest = true := by
  induction h generalizing part with
  | nil =>
    obtain ⟨rfl, rfl⟩ := List.append_eq_nil_iff.1 ht.symm
    exact ⟨[], rfl, rfl⟩
  | @cons c s t _ ih =>
    cases part with
    | nil =>
      rw [List.nil_append] at ht
      rw [← ht] at hafter
      exact ⟨c :: s, rfl, hafter⟩
    | cons d part =>
      rw [List.cons_append] at ht
      obtain ⟨hc, htail⟩ := List.cons.inj ht
      have hpart : ¬ bindMarker <:+: part := fun hwithin =>
        hmark (hwithin.trans (List.suffix_cons d part).isInfix)
      obtain ⟨rest, hs, hrest⟩ := ih hpart htail
      exact ⟨rest, by rw [hc, hs, List.cons_append], hrest⟩
  | @mark s t _ _ =>
    rcases List.append_eq_append_iff.1 ht with ⟨more, rfl, -⟩ | ⟨more, hmore, rfl⟩
    · exact absurd ⟨[], more, by simp⟩ hmark
    · -- the part would end within the marker, where a name goes on
      cases more with
      | nil => exact absurd ⟨[], [], by simpa using hmore⟩ hmark
      | cons d more =>
        have hd : d ∈ bindMarker := by simp [hmore]
        have hname : ∀ c ∈ bindMarker, Markup.continuesName c = true :=
          List.all_eq_true.1 (by decide)
        rw [List.cons_append, Markup.endsName, hname d hd] at hafter
        cases hafter

theorem standsIn (hhead : HeadLike head) (hmark : ¬ bindMarker <:+: head) (h : Expanded s t)
    (hstands : StandsIn head t) : StandsIn head s := by
  induction h with
  | nil => exact hstands
  | @cons c s t hrest ih =>
    obtain ⟨before, after, heq, hafter⟩ := hstands
    cases before with
    | nil =>
      obtain ⟨rest, hs, hends⟩ := (Expanded.cons c hrest).eq_append hmark heq hafter
      exact ⟨[], rest, hs, hends⟩
    | cons d before =>
      have ht : t = before ++ head ++ after := by
        simp only [List.cons_append] at heq
        simpa using (List.cons.inj heq).2
      exact (ih ⟨before, after, ht, hafter⟩).trans (.of_isSuffix (List.suffix_cons c s))
  | @mark s t _ ih =>
    have hstands := hhead.of_append_of_not_mem (by decide) hstands
    exact (ih hstands).trans (.of_isSuffix (List.suffix_cons ':' s))

end Expanded

theorem expanded_expandRest (s : List Char) : Expanded s (expandRest s) := by
  fun_induction expandRest s with
  | case1 s run rest hrun ih =>
    rw [(quotedRun?_append hrun).1]
    exact ih.append_left run
  | case2 => exact .nil
  | case3 c s hblank hrun name rest hname ih =>
    rw [shorthand?_append hname]
    simpa using Expanded.cons c (.mark (ih.append_left name))
  | case4 c s hblank hrun hname ih => exact .cons c ih
  | case5 c s hblank hrun ih => exact .cons c ih

theorem expanded_expandShorthand (s : List Char) : Expanded s (expandShorthand s) := by
  unfold expandShorthand
  split
  · rename_i name rest hname
    rw [shorthand?_append hname]
    simpa using Expanded.mark ((expanded_expandRest rest).append_left name)
  · exact expanded_expandRest s

/-! ## Emitted values -/

/-- What is emitted for an attribute stands in its value, where a tag is concerned. -/
theorem standsIn_of_entry (hhead : HeadLike head) {a : Written} (h : StandsIn head a.entry.2) :
    ∃ v, a.value = some v ∧ StandsIn head (unquote v) := by
  unfold Written.entry at h
  dsimp only at h
  split at h
  · have hbare : '<' ∉ "true".toList := by decide
    exact absurd h (hhead.not_of_not_mem hbare)
  · rename_i v hv
    split at h
    · exact ⟨v, hv, h⟩
    · exact ⟨v, hv, standsIn_of_literal hhead h⟩

/-- A head in an emitted value stood in the text that the attributes were read from. -/
theorem standsIn_of_mem_parse (hhead : HeadLike head) (hmark : ¬ bindMarker <:+: head)
    {key value : String} (given : (key, value) ∈ parse s) (h : StandsIn head value.toList) :
    StandsIn head s := by
  obtain ⟨a, ha, -, hvalue⟩ := exists_of_mem_parse given
  rw [hvalue] at h
  obtain ⟨v, hv, hstands⟩ := standsIn_of_entry hhead h
  exact (expanded_expandShorthand s).standsIn hhead hmark
    (hstands.trans ((of_mem_extract ha).2 v hv))

/-- A character of an expanded text was there before or comes with a marker. -/
theorem Expanded.mem {x : Char} (h : Expanded s t) (hmem : x ∈ t) : x ∈ s ∨ x ∈ bindMarker := by
  induction h with
  | nil => cases hmem
  | cons c rest ih =>
    rcases List.mem_cons.1 hmem with rfl | hmem
    · exact .inl List.mem_cons_self
    · exact (ih hmem).imp_left (List.mem_cons_of_mem c)
  | mark rest ih =>
    rcases List.mem_append.1 hmem with hmem | hmem
    · exact .inr hmem
    · exact (ih hmem).imp_left (List.mem_cons_of_mem ':')

theorem mem_of_mem_escape {x : Char} {v : List Char} (h : x ∈ escape v) (hslash : x ≠ '\\') : x ∈ v := by
  obtain ⟨c, hc, hx⟩ := List.mem_flatMap.1 h
  split at hx
  · rename_i hquote
    simp only [List.mem_cons, List.not_mem_nil, or_false] at hx
    rcases hx with rfl | rfl
    · exact absurd rfl hslash
    · exact hquote ▸ hc
  · rw [List.mem_singleton.1 hx]
    exact hc

/-- A character of an emitted value stands in the text that the attributes were read from, unless it is
one that the reading brings in. -/
theorem mem_of_mem_parse {x : Char} (hmark : x ∉ bindMarker) (htrue : x ∉ "true".toList)
    (hquote : x ≠ '\'') (hslash : x ≠ '\\') {key value : String} (given : (key, value) ∈ parse s)
    (h : x ∈ value.toList) : x ∈ s := by
  obtain ⟨a, ha, -, hvalue⟩ := exists_of_mem_parse given
  rw [hvalue] at h
  have written {v : List Char} (hv : a.value = some v) (hmem : x ∈ unquote v) : x ∈ s := by
    have hexpanded := ((of_mem_extract ha).2 v hv).subset hmem
    exact ((expanded_expandShorthand s).mem hexpanded).resolve_right hmark
  unfold Written.entry at h
  dsimp only at h
  split at h
  · exact absurd h htrue
  · rename_i v hv
    split at h
    · exact written hv h
    · rw [literal_eq] at h
      have hin : x ∈ escape (unquote v) := by simpa [hquote] using h
      exact written hv (mem_of_mem_escape hin hslash)

/-- No head stands in a key. -/
theorem not_standsIn_key (hhead : HeadLike head) {key value : String}
    (given : (key, value) ∈ parse s) : ¬ StandsIn head key.toList := by
  apply hhead.not_of_not_mem
  intro hmem
  have hchar := isKeyChar_of_mem_key given '<' hmem
  exact absurd hchar (by decide)

end Attribute

end ComponentTags
