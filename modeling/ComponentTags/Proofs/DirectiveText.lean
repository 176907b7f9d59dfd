import ComponentTags.Proofs.Compilation
import ComponentTags.Proofs.LastOccurrence

/-!
# The text of directives

A directive is a frame around parts that it takes over: the view, the expression of the context stack, the
data model, and the keys and values of the attributes. The frame holds no `<`, no slash and no line feed,
and it sets every part apart by a character that no head of a tag has. So a head that stands in a
directive stands in one of its parts.
-/

namespace ComponentTags

/-- Characters of the frame of directives. -/
def isFrameChar (c : Char) : Bool := c != '<' && c != '/' && c != '\n'

/-- Parts in a frame. A character that no tag head has follows each part, and a part that a `>` follows
does not end in a slash. -/
inductive Framed (part : List Char → Prop) : List Char → Prop where
  | nil : Framed part []
  | char {c : Char} {s : List Char} (frame : isFrameChar c = true) (rest : Framed part s) :
      Framed part (c :: s)
  | part {h s : List Char} {c : Char} (filled : part h) (frame : isFrameChar c = true)
      (cut : isHeadChar c = false) (ending : c = '>' → h.getLast? ≠ some '/')
      (rest : Framed part s) : Framed part (h ++ c :: s)

namespace Framed

variable {part : List Char → Prop} {s : List Char}

theorem literal {l : List Char} (frame : l.all isFrameChar = true) (rest : Framed part s) :
    Framed part (l ++ s) := by
  induction l with
  | nil => exact rest
  | cons c l ih =>
    rw [List.all_cons, Bool.and_eq_true] at frame
    exact .char frame.1 (ih frame.2)

/-- A part in front of fixed text that starts with a character which no head has and is no `>`. -/
theorem before {h : List Char} {c : Char} {l : List Char} (filled : part h)
    (cut : isHeadChar c = false) (other : c ≠ '>') (frame : (c :: l).all isFrameChar = true)
    (rest : Framed part s) : Framed part (h ++ (c :: l ++ s)) := by
  rw [List.all_cons, Bool.and_eq_true] at frame
  exact .part filled frame.1 cut (fun heq => absurd heq other) (literal frame.2 rest)

/-- The stack's expression in front of a method call. -/
theorem beforeCall {h l : List Char} (filled : part (h ++ ['-'])) (frame : l.all isFrameChar = true)
    (rest : Framed part s) : Framed part (h ++ ('-' :: '>' :: l ++ s)) := by
  have framed : Framed part ((h ++ ['-']) ++ '>' :: (l ++ s)) :=
    .part filled (by decide) (by decide) (fun _ => by simp) (literal frame rest)
  simpa using framed

theorem append {t : List Char} (first : Framed part s) (second : Framed part t) :
    Framed part (s ++ t) := by
  induction first with
  | nil => exact second
  | char frame _ ih => exact .char frame ih
  | part filled frame cut ending _ ih =>
    rw [List.append_assoc, List.cons_append]
    exact .part filled frame cut ending ih

/-- A character that neither the frame nor a part has is not in the text. -/
theorem not_mem {x : Char} (hframe : isFrameChar x = false) (hparts : ∀ h, part h → x ∉ h)
    (framed : Framed part s) : x ∉ s := by
  have other {c : Char} (hc : isFrameChar c = true) : x ≠ c := by
    rintro rfl
    rw [hframe] at hc
    cases hc
  induction framed with
  | nil => exact List.not_mem_nil
  | char frame _ ih =>
    rw [List.mem_cons, not_or]
    exact ⟨other frame, ih⟩
  | part filled frame _ _ _ ih =>
    rw [List.mem_append, List.mem_cons, not_or, not_or]
    exact ⟨hparts _ filled, other frame, ih⟩

theorem exists_standsIn {head : List Char} (hhead : HeadLike head) (framed : Framed part s)
    (h : StandsIn head s) : ∃ p, part p ∧ StandsIn head p := by
  induction framed with
  | nil => exact absurd h (hhead.not_of_not_mem List.not_mem_nil)
  | @char c s frame _ ih =>
    have hc : c ≠ '<' := by
      rintro rfl
      exact absurd frame (by decide)
    exact ih (hhead.of_cons_of_ne hc h)
  | part filled _ cut _ _ ih =>
    rcases hhead.or_of_append_cons cut h with h | h
    · exact ⟨_, filled, h⟩
    · exact ih h

end Framed

theorem Sealed.append {s t : List Char} (first : Sealed s) (second : Sealed t) : Sealed (s ++ t) where
  opens := by
    obtain ⟨r, rfl | rfl⟩ := first.opens
    · exact ⟨r ++ t, .inl rfl⟩
    · exact ⟨r ++ t, .inr rfl⟩
  closes := by
    obtain ⟨front, c, back, rfl, hc, hback⟩ := second.closes
    exact ⟨s ++ front, c, back, by rw [List.append_assoc], hc, hback⟩

namespace Directive

/-- What the directives of an element take over from a component, the spelling and the attributes. -/
inductive IsPart (spelling : Spelling) (c : Component) (attributes : Assoc String String) :
    List Char → Prop where
  | view : IsPart spelling c attributes c.view.toList
  | stack : IsPart spelling c attributes (spelling.contextStack.plain.toList ++ ['-'])
  | model {m : Value} (given : Component.modelOf c.dataModel = some m) :
      IsPart spelling c attributes (m.plain.toList ++ "::class".toList)
  | key {key value : String} (given : (key, value) ∈ attributes) :
      IsPart spelling c attributes key.toList
  | value {key value : String} (given : (key, value) ∈ attributes) :
      IsPart spelling c attributes value.toList

variable {spelling : Spelling} {c : Component} {attributes : Assoc String String}

/-- A character that is in none of the texts which make up the parts is in no part. -/
theorem IsPart.not_mem {x : Char} {part : List Char} (view : x ∉ c.view.toList)
    (model : ∀ m, c.dataModel = some m → x ∉ m.plain.toList)
    (stack : x ∉ spelling.contextStack.plain.toList) (marks : x ≠ '-' ∧ x ∉ "::class".toList)
    (entries : ∀ key value, (key, value) ∈ attributes → x ∉ key.toList ∧ x ∉ value.toList)
    (filled : IsPart spelling c attributes part) : x ∉ part := by
  cases filled with
  | view => exact view
  | stack =>
    intro hmem
    rcases List.mem_append.1 hmem with hmem | hmem
    · exact stack hmem
    · exact marks.1 (List.mem_singleton.1 hmem)
  | @model m given =>
    have hmodel : c.dataModel = some m := (Option.filter_eq_some_iff.1 given).1
    intro hmem
    rcases List.mem_append.1 hmem with hmem | hmem
    · exact model m hmodel hmem
    · exact marks.2 hmem
  | key given => exact (entries _ _ given).1
  | value given => exact (entries _ _ given).2

theorem framed_entriesText {part : List Char → Prop} {s : List Char}
    (filled : ∀ key value, (key, value) ∈ attributes → part key.toList ∧ part value.toList)
    (rest : Framed part s) : Framed part ((entriesText attributes).toList ++ ']' :: s) := by
  have entry (key value : String) (given : (key, value) ∈ attributes) {c : Char} {t : List Char}
      (hc : isFrameChar c = true) (cut : isHeadChar c = false) (other : c ≠ '>')
      (behind : Framed part t) :
      Framed part ('\'' :: (key.toList ++ ("' => ".toList ++ (value.toList ++ c :: t)))) := by
    obtain ⟨hkey, hvalue⟩ := filled key value given
    exact .char (by decide) (.before (c := '\'') (l := " => ".toList) hkey (by decide) (by decide)
      (by decide) (.part hvalue hc cut (fun heq => absurd heq other) behind))
  induction attributes with
  | nil => exact .char (by decide) rest
  | cons first attributes ih =>
    obtain ⟨key, value⟩ := first
    cases attributes with
    | nil =>
      have framed := entry key value (by simp) (c := ']') (by decide) (by decide)
        (by decide) rest
      simpa [entriesText] using framed
    | cons second attributes =>
      have inner := ih (fun key value hmem => filled key value (List.mem_cons_of_mem _ hmem))
        fun _ _ hmem => entry _ _ (List.mem_cons_of_mem _ hmem)
      have framed := entry key value (by simp) (c := ',') (by decide) (by decide)
        (by decide) inner
      simpa [entriesText] using framed

theorem framed_start : Framed (IsPart spelling c attributes) (start spelling c attributes).toList := by
  have entries {s : List Char} (rest : Framed (IsPart spelling c attributes) s) :
      Framed (IsPart spelling c attributes) ((entriesText attributes).toList ++ ']' :: s) :=
    framed_entriesText (fun _ _ given => ⟨.key given, .value given⟩) rest
  have read {s : List Char} (rest : Framed (IsPart spelling c attributes) s) :
      Framed (IsPart spelling c attributes)
        ("array_merge(".toList ++ (spelling.contextStack.plain.toList ++
          ('-' :: '>' :: "read(), [".toList ++ ((entriesText attributes).toList ++ ']' :: s)))) :=
    .literal (by decide) (.beforeCall .stack (by decide) (entries rest))
  unfold start
  split
  · have framed := Framed.literal (l := "@php(".toList) (by decide)
      (Framed.beforeCall (l := "push([".toList) IsPart.stack (by decide)
        (entries (.literal (l := "))".toList) (by decide) .nil)))
    simpa [List.append_assoc] using framed
  · cases hmodel : Component.modelOf c.dataModel with
    | none =>
      have framed := Framed.literal (l := "@component('".toList) (by decide)
        (Framed.before (l := ", ".toList) IsPart.view
          (c := '\'') (by decide) (by decide) (by decide)
          (read (.literal (l := "))".toList) (by decide) .nil)))
      simpa [Spelling.contextRead, List.append_assoc] using framed
    | some m =>
      have inner := read (.literal (l := "))->toArray()))".toList) (by decide) .nil)
      have model := Framed.before (l := " ".toList) (.model hmodel) (c := ',') (by decide) (by decide)
        (by decide) inner
      have framed := Framed.literal (l := "@component('".toList) (by decide)
        (Framed.before (l := ", ".toList) IsPart.view
          (c := '\'') (by decide) (by decide) (by decide)
          (read (.literal (l := ", app(".toList) (by decide) model)))
      simpa [Spelling.contextRead, List.append_assoc] using framed

theorem framed_finish : Framed (IsPart spelling c attributes) (finish spelling c).toList := by
  unfold finish
  split
  · have framed : Framed (IsPart spelling c attributes) ("@php(".toList ++
        (spelling.contextStack.plain.toList ++ ('-' :: '>' :: "pop())".toList ++ []))) :=
      .literal (by decide) (.beforeCall .stack (by decide) .nil)
    simpa [List.append_assoc] using framed
  · have framed : Framed (IsPart spelling c attributes) (" @endcomponent".toList ++ []) :=
      .literal (by decide) .nil
    simpa using framed

theorem framed_element :
    Framed (IsPart spelling c attributes) (element spelling c attributes).toList := by
  rw [element, String.toList_append]
  exact framed_start.append framed_finish

theorem tagless_entriesText (h : ∀ key value, (key, value) ∈ attributes →
    '<' ∉ key.toList ∧ '<' ∉ value.toList) : '<' ∉ (entriesText attributes).toList := by
  have framed : Framed (fun part => '<' ∉ part) ((entriesText attributes).toList ++ [']']) :=
    framed_entriesText h .nil
  have hmem := framed.not_mem (x := '<') (by decide) fun _ part => part
  rw [List.mem_append, not_or] at hmem
  exact hmem.1

/-- The last call in the directive of an opening tag. Up to it the directive does not depend on the
attributes, unless there is a data model; and then what follows it does not. -/
theorem start_calls (spelling : Spelling) (c : Component) :
    (∃ front, ∀ attributes, ∃ back,
      (start spelling c attributes).toList = '@' :: front ++ '-' :: '>' :: back ∧
        ((∀ key value, (key, value) ∈ attributes → '<' ∉ key.toList ∧ '<' ∉ value.toList) → '<' ∉ back)) ∨
      (finish spelling c = " @endcomponent" ∧ ∀ attributes, ∃ front,
        (start spelling c attributes).toList = front ++ '-' :: '>' :: "toArray()))".toList) := by
  unfold start finish
  split
  · refine .inl ⟨("php(" ++ spelling.contextStack.plain).toList, fun attributes =>
      ⟨("push([" ++ entriesText attributes ++ "]))").toList, by simp, fun h => ?_⟩⟩
    simp [tagless_entriesText h]
  · cases Component.modelOf c.dataModel with
    | none =>
      refine .inl ⟨("component('" ++ c.view ++ "', array_merge(" ++ spelling.contextStack.plain).toList,
        fun attributes => ⟨("read(), [" ++ entriesText attributes ++ "]))").toList,
          by simp [Spelling.contextRead], fun h => ?_⟩⟩
      simp [tagless_entriesText h]
    | some model =>
      refine .inr ⟨rfl, fun attributes => ⟨("@component('" ++ c.view ++ "', " ++ ("array_merge(" ++
        spelling.contextRead ++ ", [" ++ entriesText attributes ++ "]" ++ ", app(" ++ model.plain ++
        "::class, array_merge(" ++ spelling.contextRead ++ ", [" ++ entriesText attributes ++ "]" ++
        "))")).toList, by simp⟩⟩

/-- The directive of an opening tag does not start like that of a slot. -/
theorem exists_start_eq_cons (spelling : Spelling) (c : Component) (attributes : Assoc String String) :
    ∃ d r, (start spelling c attributes).toList = '@' :: d :: r ∧ d ≠ '<' ∧ d ≠ 's' := by
  unfold start
  split
  · exact ⟨'p', by simp⟩
  · exact ⟨'c', by simp⟩

theorem endsInParenthesis (s : String) : ∃ front, (s ++ ")").toList = front ++ [')'] :=
  ⟨s.toList, by simp⟩

theorem exists_start_eq_concat (spelling : Spelling) (c : Component) (attributes : Assoc String String) :
    ∃ front, (start spelling c attributes).toList = front ++ [')'] := by
  unfold start
  split
  · have hfront := endsInParenthesis ("@php(" ++ spelling.contextStack.plain ++ "->push(" ++
      ("[" ++ entriesText attributes ++ "]") ++ ")")
    simpa [String.append_assoc] using hfront
  · exact endsInParenthesis _

theorem finish_eq_concat_or (spelling : Spelling) (c : Component) :
    (∃ front, (finish spelling c).toList = front ++ [')']) ∨ finish spelling c = " @endcomponent" := by
  unfold finish
  split
  · have hfront := endsInParenthesis ("@php(" ++ spelling.contextStack.plain ++ "->pop()")
    exact .inl (by simpa [String.append_assoc] using hfront)
  · exact .inr rfl

theorem sealed_start : Sealed (start spelling c attributes).toList where
  opens := by
    unfold start
    split <;> simp
  closes := by
    obtain ⟨front, hfront⟩ := exists_start_eq_concat spelling c attributes
    exact ⟨front, ')', [], hfront, .inr rfl, List.not_mem_nil⟩

theorem sealed_finish : Sealed (finish spelling c).toList where
  opens := by
    unfold finish
    split <;> simp
  closes := by
    rcases finish_eq_concat_or spelling c with ⟨front, hfront⟩ | hend
    · exact ⟨front, ')', [], hfront, .inr rfl, List.not_mem_nil⟩
    · exact ⟨[' '], '@', "endcomponent".toList, by simp [hend], .inl rfl, by simp⟩

theorem coversEnd_start : CoversEnd (start spelling c attributes).toList := by
  obtain ⟨front, hfront⟩ := exists_start_eq_concat spelling c attributes
  exact ⟨front, ')', hfront, by decide⟩

theorem coversEnd_finish : CoversEnd (finish spelling c).toList := by
  rcases finish_eq_concat_or spelling c with ⟨front, hfront⟩ | hend
  · exact ⟨front, ')', hfront, by decide⟩
  · exact ⟨" @endcomponen".toList, 't', by rw [hend]; rfl, by decide⟩

theorem coversEnd_element : CoversEnd (element spelling c attributes).toList := by
  rw [element, String.toList_append]
  exact coversEnd_finish.append_left _

theorem coversEnd_slot (name contents : List Char) : CoversEnd (slot name contents) :=
  .append_left _ ⟨"@endslo".toList, 't', rfl, by decide⟩

theorem sealed_element : Sealed (element spelling c attributes).toList := by
  rw [element, String.toList_append]
  exact sealed_start.append sealed_finish

theorem sealed_slot (name contents : List Char) : Sealed (slot name contents) where
  opens := by
    unfold slot
    simp
  closes := by
    refine ⟨"@slot('".toList ++ name ++ "')".toList ++ contents, '@', "endslot".toList, ?_,
      .inl rfl, by simp⟩
    unfold slot
    simp

/-- The directive of a slot, cut behind its name and behind its contents. -/
theorem slot_eq (name contents : List Char) :
    slot name contents =
      "@slot('".toList ++ (name ++ '\'' :: ([')'] ++ (contents ++ '@' :: "endslot".toList))) := by
  unfold slot
  simp

/-- A head in the directive of a slot stands in the slot's name or in its contents. -/
theorem standsIn_slot {name contents head : List Char} (hhead : HeadLike head)
    (h : StandsIn head (slot name contents)) : StandsIn head name ∨ StandsIn head contents := by
  have hopen : '<' ∉ "@slot('".toList := by decide
  have hend : '<' ∉ "endslot".toList := by decide
  rw [slot_eq] at h
  rcases hhead.or_of_append_cons (by decide) (hhead.of_append_of_not_mem hopen h) with h | h
  · exact .inl h
  · rcases hhead.or_of_append_cons (by decide) (hhead.of_append_of_not_mem (by decide) h) with h | h
    · exact .inr h
    · exact absurd h (hhead.not_of_not_mem hend)

end Directive

end ComponentTags
