import ComponentTags.Proofs.ShorthandMarks

/-!
# Attributes in marked text

Taking the attributes knows quotes only behind an equals sign. It sees a mark as characters of a name, of a
bare value or of what stands between quotes, and never as the end of any of them: each scanner that takes a
part of an attribute takes the same part with the marks in it. Therefore the attributes of a marked text are
those of the text, in their places, with the marks that stand in them.
-/

namespace ComponentTags.Attribute

variable {s u v rest : List Char} {c : Char} {apart : Bool} {m : Nat → Bool} {i : Nat}

/-! ## Parts of attributes -/

/-- Only names with a colon in front that stand apart are marked in the text that starts at place `i`. -/
def MarksShorthands (m : Nat → Bool) (i : Nat) (s : List Char) : Prop :=
  ∀ k, m (i + k) = true → isApart true (s.take k) = true ∧ (shorthand? (s.drop k)).isSome

theorem isApart_of_isApart (h : isApart apart s = true) : isApart true s = true := by
  cases s with
  | nil => rfl
  | cons c s => exact h

theorem MarksShorthands.behind (h : MarksShorthands m i (u ++ s)) : MarksShorthands m (i + u.length) s := by
  intro k hk
  obtain ⟨hapart, hname⟩ := h (u.length + k) (by rwa [← Nat.add_assoc])
  rw [List.take_length_add_append, isApart_append] at hapart
  rw [List.drop_length_add_append] at hname
  exact ⟨isApart_of_isApart hapart, hname⟩

theorem MarksShorthands.tail (h : MarksShorthands m i (c :: s)) : MarksShorthands m (i + 1) s :=
  h.behind (u := [c])

theorem MarksShorthands.head (h : MarksShorthands m i (c :: s)) (hi : m i = true) :
    c = ':' ∧ ∃ d r, s = d :: r ∧ isPlainNameChar d = true := by
  obtain ⟨-, hname⟩ := h 0 hi
  obtain ⟨d, r, heq, hd⟩ := exists_of_shorthand?_isSome hname
  cases heq
  exact ⟨rfl, d, r, rfl, hd⟩

theorem MarksShorthands.unmarked (h : MarksShorthands m i (c :: s)) (hc : c ≠ ':') : m i = false := by
  cases hi : m i with
  | false => rfl
  | true => exact absurd (h.head hi).1 hc

theorem markFrom_cons_of_not (h : m i = false) : markFrom m i (c :: s) = c :: markFrom m (i + 1) s := by
  rw [markFrom, h]
  rfl

theorem markFrom_cons_of_marked (h : m i = true) :
    markFrom m i (c :: s) = "bind".toList ++ c :: markFrom m (i + 1) s := by
  rw [markFrom, if_pos h]

theorem isApart_markFrom (u : List Char) : isApart apart (markFrom m i u) = isApart apart u := by
  induction u generalizing apart i with
  | nil => rfl
  | cons c u ih =>
    rw [markFrom, isApart_append]
    exact ih

/-- A run of characters to which the marker belongs is the same run with the marks in it. -/
theorem span_markFrom {p : Char → Bool} (hp : ∀ c ∈ bindMarker, p c = true) (h : MarksShorthands m i s) :
    (markFrom m i s).takeWhile p = markFrom m i (s.takeWhile p) ∧
      (markFrom m i s).dropWhile p = markFrom m (i + (s.takeWhile p).length) (s.dropWhile p) := by
  have mark : ∀ c ∈ "bind".toList, p c = true := fun c hc => hp c (List.mem_append_left [':'] hc)
  have colon : p ':' = true := hp ':' (by decide)
  induction s generalizing i with
  | nil => simp [markFrom]
  | cons c s ih =>
    obtain ⟨htake, hdrop⟩ := ih h.tail
    have hplace : i + 1 + (s.takeWhile p).length = i + ((s.takeWhile p).length + 1) := by omega
    cases hi : m i with
    | true =>
      obtain ⟨rfl, -⟩ := h.head hi
      rw [markFrom_cons_of_marked hi, List.takeWhile_append_of_pos mark, List.dropWhile_append_of_pos mark]
      simp [colon, htake, hdrop, markFrom_cons_of_marked hi, hplace]
    | false =>
      rw [markFrom_cons_of_not hi]
      cases hc : p c with
      | true => simp [hc, htake, hdrop, markFrom_cons_of_not hi, hplace]
      | false => simp [hc, markFrom, markFrom_cons_of_not hi]

/-- A name starts here, perhaps with a colon in front. -/
def startsName : List Char → Bool
  | ':' :: c :: _ => isPlainNameChar c
  | c :: _ => isPlainNameChar c
  | [] => false

theorem startsName_cons_of_ne (hc : c ≠ ':') : startsName (c :: s) = isPlainNameChar c := by
  unfold startsName
  split
  · rename_i heq
    exact absurd (List.cons.inj heq).1 hc
  · rename_i heq
    cases heq
    rfl
  · rename_i heq
    cases heq

theorem name?_eq (s : List Char) :
    name? s = if startsName s then some (s.takeWhile isNameChar, s.dropWhile isNameChar) else none := by
  have colon : isNameChar ':' = true := by decide
  have run {c : Char} {s : List Char} (hc : isPlainNameChar c = true) :
      (c :: s).takeWhile isNameChar = c :: s.takeWhile isNameChar ∧
        (c :: s).dropWhile isNameChar = s.dropWhile isNameChar := by
    have hname := isNameChar_of_isPlainNameChar hc
    exact ⟨List.takeWhile_cons_of_pos hname, List.dropWhile_cons_of_pos hname⟩
  unfold name?
  split
  · rename_i c s
    rw [startsName, List.takeWhile_cons_of_pos colon, List.dropWhile_cons_of_pos colon]
    split
    · rename_i hc
      rw [(run hc).1, (run hc).2]
    · rfl
  · rename_i c s hcolon
    have hstarts : startsName (c :: s) = isPlainNameChar c := by
      by_cases hc : c = ':'
      · subst hc
        cases s with
        | nil => rfl
        | cons d s => exact absurd rfl (hcolon d s rfl)
      · exact startsName_cons_of_ne hc
    rw [hstarts]
    split
    · rename_i hc
      rw [(run hc).1, (run hc).2]
    · rfl
  · rfl

theorem startsName_markFrom (h : MarksShorthands m i s) : startsName (markFrom m i s) = startsName s := by
  cases s with
  | nil => rfl
  | cons c s =>
    cases hi : m i with
    | true =>
      obtain ⟨rfl, d, r, rfl, hd⟩ := h.head hi
      have mark : isPlainNameChar 'b' = true := by decide
      rw [markFrom_cons_of_marked hi]
      exact mark.trans hd.symm
    | false =>
      rw [markFrom_cons_of_not hi]
      by_cases hc : c = ':'
      · subst hc
        cases s with
        | nil => rfl
        | cons d s =>
          have colon : Text.isBlank ':' = false := by decide
          -- a second colon does not stand apart
          have hnext : m (i + 1) = false := by
            cases hnext : m (i + 1) with
            | false => rfl
            | true => exact absurd (h 1 hnext).1 (by simp [isApart, colon])
          rw [markFrom_cons_of_not hnext]
          rfl
      · rw [startsName_cons_of_ne hc, startsName_cons_of_ne hc]

theorem name?_markFrom (h : MarksShorthands m i s) :
    name? (markFrom m i s) =
      (name? s).map fun found => (markFrom m i found.1, markFrom m (i + found.1.length) found.2) := by
  obtain ⟨htake, hdrop⟩ := span_markFrom (p := isNameChar) (List.all_eq_true.1 (by decide)) h
  rw [name?_eq, name?_eq, startsName_markFrom h, htake, hdrop]
  split <;> rfl

theorem closeQuote?_eq (quote : Char) (s : List Char) :
    closeQuote? quote s =
      match s.dropWhile (· != quote) with
      | [] => none
      | _ :: rest => some (s.takeWhile (· != quote), rest) := by
  induction s with
  | nil => rfl
  | cons c s ih =>
    by_cases hc : c = quote
    · simp [closeQuote?, hc]
    · rw [closeQuote?, if_neg hc, ih, List.dropWhile_cons_of_pos (by simpa using hc),
        List.takeWhile_cons_of_pos (by simpa using hc)]
      split <;> rfl

theorem closeQuote?_markFrom {quote : Char} (hquote : quote = '"' ∨ quote = '\'')
    (h : MarksShorthands m i s) :
    closeQuote? quote (markFrom m i s) =
      (closeQuote? quote s).map fun found =>
        (markFrom m i found.1, markFrom m (i + found.1.length + 1) found.2) := by
  have mark : ∀ c ∈ bindMarker, (c != quote) = true := by
    rcases hquote with rfl | rfl <;> exact List.all_eq_true.1 (by decide)
  obtain ⟨htake, hdrop⟩ := span_markFrom (p := (· != quote)) mark h
  rw [closeQuote?_eq, closeQuote?_eq, htake, hdrop]
  cases hrest : s.dropWhile (· != quote) with
  | nil => rfl
  | cons d r =>
    have hd : d = quote := by
      have hhead := List.head?_dropWhile_not (· != quote) s
      rw [hrest] at hhead
      simpa using hhead
    have hcolon : d ≠ ':' := by rcases hquote with rfl | rfl <;> rw [hd] <;> decide
    have hbehind : MarksShorthands m (i + (s.takeWhile (· != quote)).length) (d :: r) := by
      rw [← hrest]
      exact MarksShorthands.behind (by rwa [List.takeWhile_append_dropWhile])
    rw [markFrom_cons_of_not (hbehind.unmarked hcolon)]
    rfl

theorem quotedRun?_markFrom (h : MarksShorthands m i s) :
    quotedRun? (markFrom m i s) =
      (quotedRun? s).map fun found => (markFrom m i found.1, markFrom m (i + found.1.length) found.2) := by
  cases s with
  | nil => rfl
  | cons c s =>
    by_cases hquote : c = '"' ∨ c = '\''
    · have hcolon : c ≠ ':' := by rcases hquote with rfl | rfl <;> decide
      rw [markFrom_cons_of_not (h.unmarked hcolon)]
      simp only [quotedRun?, hquote, Bool.or_eq_true, decide_eq_true_eq, if_true]
      rw [closeQuote?_markFrom hquote h.tail]
      cases hclose : closeQuote? c s with
      | none => rfl
      | some found =>
        obtain ⟨inner, rest⟩ := found
        have hbehind : MarksShorthands m (i + (c :: inner).length) (c :: rest) :=
          MarksShorthands.behind (by rwa [List.cons_append, ← (closeQuote?_eq_some hclose).1])
        simp only [Option.map_some]
        rw [markFrom_append, markFrom_cons_of_not (h.unmarked hcolon),
          markFrom_cons_of_not (hbehind.unmarked hcolon), List.length_append, List.length_cons]
        simp only [markFrom, List.length_nil, List.length_cons, Nat.add_assoc, Nat.add_comm 1]
    · rw [not_or] at hquote
      rw [quotedRun?_cons_of_ne hquote.1 hquote.2]
      cases hi : m i with
      | true =>
        rw [markFrom_cons_of_marked hi]
        rfl
      | false => rw [markFrom_cons_of_not hi, quotedRun?_cons_of_ne hquote.1 hquote.2, Option.map_none]

theorem value?_equals (s : List Char) :
    value? ('=' :: s) =
      (quotedRun? s).or
        (if s.takeWhile isBareChar = [] then none
          else some (s.takeWhile isBareChar, s.dropWhile isBareChar)) := by
  rw [value?]
  cases quotedRun? s with
  | some found => rfl
  | none =>
    simp only [Option.none_or]
    split
    · rename_i hnil
      rw [if_pos hnil]
    · rename_i hne
      rw [if_neg hne]

/-- A value is a run between quotes, or has no white space in it. -/
theorem value?_cases (h : value? s = some (v, rest)) :
    quotedRun? (v ++ rest) = some (v, rest) ∨ ∀ c ∈ v, Text.isBlank c = false := by
  have hs : s = '=' :: (v ++ rest) := value?_append h
  rw [hs, value?_equals, Option.or_eq_some_iff] at h
  rcases h with h | ⟨-, h⟩
  · exact .inl h
  · split at h
    · cases h
    · obtain ⟨hv, -⟩ := Prod.mk.inj (Option.some.inj h)
      refine .inr fun c hc => ?_
      rw [← hv] at hc
      have hbare : isBareChar c = true := List.all_eq_true.1 List.all_takeWhile c hc
      rw [isBareChar, Bool.and_eq_true, Bool.not_eq_true'] at hbare
      exact hbare.1

theorem markFrom_eq_nil_iff : markFrom m i s = [] ↔ s = [] := by
  cases s <;> simp [markFrom]

theorem value?_markFrom (h : MarksShorthands m i s) :
    value? (markFrom m i s) =
      (value? s).map fun found =>
        (markFrom m (i + 1) found.1, markFrom m (i + 1 + found.1.length) found.2) := by
  have other {s : List Char} (hs : ∀ r, s ≠ '=' :: r) : value? s = none := by
    unfold value?
    split
    · rename_i r
      exact absurd rfl (hs r)
    · rfl
  by_cases hs : ∃ r, s = '=' :: r
  · obtain ⟨r, rfl⟩ := hs
    obtain ⟨htake, hdrop⟩ := span_markFrom (p := isBareChar) (List.all_eq_true.1 (by decide)) h.tail
    rw [markFrom_cons_of_not (h.unmarked (by decide)), value?_equals, value?_equals,
      quotedRun?_markFrom h.tail, htake, hdrop, Option.map_or]
    congr 1
    simp only [markFrom_eq_nil_iff]
    split <;> rfl
  · have hne (r : List Char) : s ≠ '=' :: r := fun heq => hs ⟨r, heq⟩
    rw [other hne]
    refine other fun r hr => ?_
    cases s with
    | nil => cases hr
    | cons c s =>
      cases hi : m i with
      | true =>
        rw [markFrom_cons_of_marked hi] at hr
        cases hr
      | false =>
        rw [markFrom_cons_of_not hi] at hr
        cases hr
        exact hne s rfl

/-! ## Attributes in their places -/

/-- An attribute that is taken, with the text in front of it. -/
structure Found extends Written where
  before : List Char
  deriving DecidableEq, Repr

/-- The attributes that are taken from a text, each with what stands in front of it. In front of the text is
`before`. -/
def found (before s : List Char) : List Found :=
  match _name : name? s with
  | some (name, rest) =>
    match _value : value? rest with
    | some (value, rest) => ⟨⟨name, some value⟩, before⟩ :: found (before ++ name ++ '=' :: value) rest
    | none => ⟨⟨name, none⟩, before⟩ :: found (before ++ name) rest
  | none =>
    match s with
    | [] => []
    | c :: s => found (before ++ [c]) s
termination_by s.length
decreasing_by
  · have hn := name?_append _name
    have hv := value?_append _value
    rw [hn.1, List.length_append, hv]
    simp only [List.cons_append, List.length_cons, List.length_append]
    omega
  · have hn := name?_append _name
    rw [hn.1, List.length_append]
    omega
  · simp

theorem found_eq (before s : List Char) :
    found before s =
      match name? s with
      | some (name, rest) =>
        match value? rest with
        | some (value, rest) => ⟨⟨name, some value⟩, before⟩ :: found (before ++ name ++ '=' :: value) rest
        | none => ⟨⟨name, none⟩, before⟩ :: found (before ++ name) rest
      | none =>
        match s with
        | [] => []
        | c :: s => found (before ++ [c]) s := by
  rw [found]
  split
  · rename_i hname
    simp only [hname]
    split
    · rename_i hvalue
      rw [hvalue]
    · rename_i hvalue
      rw [hvalue]
  · rename_i hname
    simp only [hname]
    cases s <;> rfl

/-- The attributes in their places are the attributes. -/
theorem map_found (before s : List Char) : (found before s).map Found.toWritten = extract s := by
  fun_induction found before s with
  | case1 before s name rest hname value rest' hvalue ih =>
    rw [extract_of_value? hname hvalue, List.map_cons, ih]
  | case2 before s name rest hname hvalue ih => rw [extract_of_bare hname hvalue, List.map_cons, ih]
  | case3 before hname => rw [extract_nil, List.map_nil]
  | case4 before c s hname ih =>
    rw [ih, extract_cons_of_name?_eq_none hname]

/-- What is in front of an attribute, the attribute and the rest make up the text. -/
theorem of_mem_found {f : Found} {before : List Char} (h : f ∈ found before s) :
    ∃ u r rest, f.before = before ++ u ∧ s = u ++ r ∧ name? r = some (f.name, rest) ∧
      f.value = (value? rest).map Prod.fst := by
  fun_induction found before s with
  | case1 before s name rest hname value rest' hvalue ih =>
    rcases List.mem_cons.1 h with rfl | h
    · exact ⟨[], s, rest, by simp, rfl, hname, by rw [hvalue]; rfl⟩
    · obtain ⟨u, r, rest'', hbefore, rfl, hfound⟩ := ih h
      refine ⟨name ++ '=' :: value ++ u, r, rest'', by simp [hbefore], ?_, hfound⟩
      rw [(name?_append hname).1, value?_append hvalue]
      simp
  | case2 before s name rest hname hvalue ih =>
    rcases List.mem_cons.1 h with rfl | h
    · exact ⟨[], s, rest, by simp, rfl, hname, by rw [hvalue]; rfl⟩
    · obtain ⟨u, r, rest'', hbefore, rfl, hfound⟩ := ih h
      refine ⟨name ++ u, r, rest'', by simp [hbefore], ?_, hfound⟩
      rw [(name?_append hname).1, List.append_assoc]
  | case3 before hname => cases h
  | case4 before c s hname ih =>
    obtain ⟨u, r, rest, hbefore, rfl, hfound⟩ := ih h
    exact ⟨c :: u, r, rest, by simp [hbefore], rfl, hfound⟩

/-- An attribute with the marks that stand in it and in front of it. -/
def Found.marked (m : Nat → Bool) (f : Found) : Found where
  name := markFrom m f.before.length f.name
  value := f.value.map (markFrom m (f.before.length + f.name.length + 1))
  before := markFrom m 0 f.before

theorem MarksShorthands.behind_name {name : List Char} (h : MarksShorthands m i s)
    (hname : name? s = some (name, rest)) : MarksShorthands m (i + name.length) rest := by
  rw [(name?_append hname).1] at h
  exact h.behind

theorem MarksShorthands.behind_value (h : MarksShorthands m i s) (hvalue : value? s = some (v, rest)) :
    m i = false ∧ MarksShorthands m (i + 1 + v.length) rest := by
  rw [value?_append hvalue] at h
  exact ⟨h.unmarked (by decide), h.tail.behind⟩

/-- Where no name starts, nothing is marked. -/
theorem MarksShorthands.unmarked_of_name?_eq_none (h : MarksShorthands m i (c :: s))
    (hname : name? (c :: s) = none) : m i = false := by
  cases hi : m i with
  | false => rfl
  | true =>
    obtain ⟨rfl, d, r, rfl, hd⟩ := h.head hi
    rw [name?, if_pos hd] at hname
    cases hname

/-- The attributes of a marked text are those of the text, marked. -/
theorem found_markFrom (before : List Char) (h : MarksShorthands m before.length s) :
    found (markFrom m 0 before) (markFrom m before.length s) =
      (found before s).map (Found.marked m) := by
  fun_induction found before s with
  | case1 before s name rest hname value rest' hvalue ih =>
    have hbehind := h.behind_name hname
    obtain ⟨hequals, hrest⟩ := hbehind.behind_value hvalue
    have hlength : (before ++ name ++ '=' :: value).length =
        before.length + name.length + 1 + value.length := by
      simp only [List.length_append, List.length_cons]
      omega
    have hfront : markFrom m 0 (before ++ name ++ '=' :: value) =
        markFrom m 0 before ++ markFrom m before.length name ++
          '=' :: markFrom m (before.length + name.length + 1) value := by
      rw [markFrom_append, markFrom_append, Nat.zero_add, Nat.zero_add, List.length_append,
        markFrom_cons_of_not hequals]
    have ih := ih (by rwa [hlength])
    rw [hfront, hlength] at ih
    rw [found_eq, name?_markFrom h, hname]
    simp only [Option.map_some]
    rw [value?_markFrom hbehind, hvalue]
    simp only [Option.map_some, List.map_cons]
    rw [ih]
    rfl
  | case2 before s name rest hname hvalue ih =>
    have hbehind := h.behind_name hname
    have hfront : markFrom m 0 (before ++ name) = markFrom m 0 before ++ markFrom m before.length name := by
      rw [markFrom_append, Nat.zero_add]
    have ih := ih (by rwa [List.length_append])
    rw [hfront, List.length_append] at ih
    rw [found_eq, name?_markFrom h, hname]
    simp only [Option.map_some]
    rw [value?_markFrom hbehind, hvalue]
    simp only [Option.map_none, List.map_cons]
    rw [ih]
    rfl
  | case3 before hname => simp [markFrom, found_eq, name?]
  | case4 before c s hname ih =>
    have hhere := h.unmarked_of_name?_eq_none hname
    have hfront : markFrom m 0 (before ++ [c]) = markFrom m 0 before ++ [c] := by
      rw [markFrom_append, Nat.zero_add, markFrom_cons_of_not hhere, markFrom]
    have ih := ih (by simpa using h.tail)
    rw [hfront, List.length_append, List.length_singleton] at ih
    have hread := name?_markFrom h
    rw [hname, Option.map_none, markFrom_cons_of_not hhere] at hread
    rw [markFrom_cons_of_not hhere, found_eq, hread]
    exact ih

theorem marksShorthands_marks (t : List Char) : MarksShorthands (marks t) 0 t := by
  intro k hk
  rw [Nat.zero_add, marks, marksFrom, Bool.and_eq_true, Bool.and_eq_true] at hk
  exact hk.1

theorem found_expandShorthand (t : List Char) :
    found [] (expandShorthand t) = (found [] t).map (Found.marked (marks t)) := by
  rw [expandShorthand_eq_markFrom]
  exact found_markFrom [] (marksShorthands_marks t)

end ComponentTags.Attribute
