import ComponentTags.Proofs.AttributeList
import ComponentTags.Proofs.TextPieces

/-!
# Reading a literal back

The renderer reads a literal from its opening quote: `\'` stands for a quote, `\\` for a backslash, any other
backslash for itself, and the first quote that no backslash was read with ends the literal. A backslash is put
before each quote of a value, but none before its backslashes. A literal is therefore its value only where
each backslash stands before another character than these two, and it ends where it should only where no run
of backslashes of odd length stands before a quote or at the end: the last backslash of such a run is read
with the one put before the quote, or with the closing quote.
-/

namespace ComponentTags.Attribute

variable {v w s rest : List Char} {c : Char}

/-! ## The rule of the renderer -/

/-- The value of a literal without its opening quote, and the text behind its closing quote. -/
def readInner? : List Char → Option (List Char × List Char)
  | [] => none
  | '\\' :: '\'' :: s => (readInner? s).map (Prod.map ('\'' :: ·) id)
  | '\\' :: '\\' :: s => (readInner? s).map (Prod.map ('\\' :: ·) id)
  | '\'' :: s => some ([], s)
  | c :: s => (readInner? s).map (Prod.map (c :: ·) id)

/-- The value of the literal at the start of a text, and the text behind it. -/
def readLiteral? : List Char → Option (List Char × List Char)
  | '\'' :: s => readInner? s
  | _ => none

theorem readInner?_cons (hquote : c ≠ '\'') (hslash : c ≠ '\\') :
    readInner? (c :: s) = (readInner? s).map (Prod.map (c :: ·) id) := by
  rw [readInner?]
  · rintro s rfl
    exact absurd rfl hslash
  · rintro s rfl
    exact absurd rfl hslash
  · rintro rfl
    exact absurd rfl hquote

/-- A backslash before another character than a quote or a backslash stands for itself. -/
theorem readInner?_slash_cons (hquote : c ≠ '\'') (hslash : c ≠ '\\') :
    readInner? ('\\' :: c :: s) = (readInner? s).map (Prod.map ('\\' :: c :: ·) id) := by
  rw [readInner?, readInner?_cons hquote hslash, Option.map_map]
  · rfl
  · intro s _ heq
    exact hquote (List.cons.inj heq).1
  · intro s _ heq
    exact hslash (List.cons.inj heq).1
  · intro heq
    exact absurd heq (by decide)

/-! ## What is read of an escaped value -/

/-- The backslash that stands in front of a text and is read together with what follows, if there is one. -/
def pending (odd : Bool) : List Char :=
  if odd then ['\\'] else []

@[simp] theorem pending_true : pending true = ['\\'] := rfl

@[simp] theorem pending_false : pending false = [] := rfl

theorem escape_cons (c : Char) (v : List Char) :
    escape (c :: v) = (if c = '\'' then ['\\', '\''] else [c]) ++ escape v :=
  List.flatMap_cons

/-- One character of an escaped value: a backslash pairs with the one in front of it or waits for the next
character, and a quote ends the literal if a backslash before it takes the one put there. -/
theorem readInner?_pending_cons (odd : Bool) (c : Char) (v s : List Char) :
    readInner? (pending odd ++ (escape (c :: v) ++ s)) =
      if c = '\\' then
        if odd then (readInner? (escape v ++ s)).map (Prod.map ('\\' :: ·) id)
        else readInner? (pending true ++ (escape v ++ s))
      else if c = '\'' then
        if odd then some (['\\'], escape v ++ s)
        else (readInner? (escape v ++ s)).map (Prod.map ('\'' :: ·) id)
      else (readInner? (escape v ++ s)).map (Prod.map (pending odd ++ c :: ·) id) := by
  rw [escape_cons]
  by_cases hslash : c = '\\'
  · subst hslash
    cases odd <;> rfl
  by_cases hquote : c = '\''
  · subst hquote
    cases odd <;> rfl
  simp only [hslash, hquote, if_false]
  cases odd with
  | true => exact readInner?_slash_cons hquote hslash
  | false => exact readInner?_cons hquote hslash

/-! ## Values that are read back -/

/-- Each backslash stands before another character than a backslash or a quote. -/
def PlainSlashes (v : List Char) : Prop :=
  ∀ before after, v = before ++ '\\' :: after → ∃ d ∈ after.head?, d ≠ '\\' ∧ d ≠ '\''

theorem plainSlashes_nil : PlainSlashes [] := by
  intro before after heq
  simp at heq

theorem plainSlashes_cons :
    PlainSlashes (c :: v) ↔ (c = '\\' → ∃ d ∈ v.head?, d ≠ '\\' ∧ d ≠ '\'') ∧ PlainSlashes v := by
  constructor
  · intro h
    refine ⟨fun hc => h [] v ?_, fun before after heq => h (c :: before) after ?_⟩
    · rw [hc, List.nil_append]
    · rw [heq, List.cons_append]
  · rintro ⟨hfirst, hrest⟩ before after heq
    cases before with
    | nil =>
      cases heq
      exact hfirst rfl
    | cons d before =>
      cases heq
      exact hrest before after rfl

theorem plainSlashes_cons_of_ne (h : c ≠ '\\') : PlainSlashes (c :: v) ↔ PlainSlashes v := by
  simp [plainSlashes_cons, h]

/-- Nothing is read of a literal that is not in its value. -/
theorem length_le_of_readInner? (odd : Bool)
    (h : readInner? (pending odd ++ (escape v ++ ['\''])) = some (w, rest)) :
    w.length ≤ (pending odd ++ v).length := by
  induction v generalizing odd w with
  | nil =>
    cases odd with
    | true => cases h
    | false =>
      cases h
      exact Nat.le_refl _
  | cons c v ih =>
    have plain {f : List Char → List Char}
        (hread : (readInner? (escape v ++ ['\''])).map (Prod.map f id) = some (w, rest)) :
        ∃ u, w = f u ∧ u.length ≤ v.length := by
      obtain ⟨⟨u, rest'⟩, hu, heq⟩ := Option.map_eq_some_iff.1 hread
      cases heq
      exact ⟨u, rfl, ih false hu⟩
    rw [readInner?_pending_cons] at h
    simp only [List.length_append, List.length_cons]
    split at h
    · split at h
      · obtain ⟨u, rfl, hlen⟩ := plain h
        simp only [List.length_cons]
        omega
      · have hlen := ih true h
        simp only [pending, if_true, List.length_append, List.length_cons, List.length_nil] at hlen
        omega
    · split at h
      · split at h
        · cases h
          simp only [List.length_singleton]
          omega
        · obtain ⟨u, rfl, hlen⟩ := plain h
          simp only [List.length_cons]
          omega
      · obtain ⟨u, rfl, hlen⟩ := plain h
        simp only [List.length_append, List.length_cons]
        omega

/-- A pair of backslashes is read as one, and nothing makes the value longer again. -/
theorem readInner?_eq_self_iff (odd : Bool) :
    readInner? (pending odd ++ (escape v ++ ['\''])) = some (pending odd ++ v, []) ↔
      PlainSlashes (pending odd ++ v) := by
  induction v generalizing odd with
  | nil =>
    cases odd with
    | true =>
      refine iff_of_false (fun h => nomatch h) fun h => ?_
      obtain ⟨d, hd, -⟩ := h [] [] rfl
      cases hd
    | false => exact iff_of_true rfl plainSlashes_nil
  | cons c v ih =>
    have plain : readInner? (escape v ++ ['\'']) = some (v, []) ↔ PlainSlashes v := ih false
    rw [readInner?_pending_cons]
    by_cases hslash : c = '\\'
    · subst hslash
      cases odd with
      | true =>
        refine iff_of_false (fun h => ?_) fun h => ?_
        · obtain ⟨⟨w, rest⟩, hw, heq⟩ := Option.map_eq_some_iff.1 h
          cases heq
          have hlen : v.length + 1 ≤ v.length := length_le_of_readInner? false hw
          omega
        · obtain ⟨d, hd, hne, -⟩ := h [] ('\\' :: v) rfl
          cases hd
          exact hne rfl
      | false => exact ih true
    by_cases hquote : c = '\''
    · subst hquote
      cases odd with
      | true =>
        refine iff_of_false (fun h => ?_) fun h => ?_
        · cases h
        · obtain ⟨d, hd, -, hne⟩ := h [] ('\'' :: v) rfl
          cases hd
          exact hne rfl
      | false => simpa [pending, plainSlashes_cons_of_ne hslash] using plain
    · cases odd with
      | true => simpa [pending, plainSlashes_cons, hslash, hquote] using plain
      | false => simpa [pending, plainSlashes_cons_of_ne hslash, hslash, hquote] using plain

/-! ## Where the literal ends -/

/-- How a literal ends in its text: nowhere, at the last character or before it. -/
inductive Ending where
  | never
  | last
  | early
  deriving DecidableEq, Repr

/-- The ending of a literal that was read. -/
def Ending.ofRead : Option (List Char × List Char) → Ending
  | none => never
  | some (_, []) => last
  | some (_, _ :: _) => early

@[simp] theorem Ending.ofRead_map (f : List Char → List Char) (read : Option (List Char × List Char)) :
    ofRead (read.map (Prod.map f id)) = ofRead read := by
  match read with
  | none | some (_, []) | some (_, _ :: _) => rfl

theorem Ending.ofRead_eq_last_iff {read : Option (List Char × List Char)} :
    ofRead read = last ↔ ∃ w, read = some (w, []) := by
  match read with
  | none | some (_, []) | some (_, _ :: _) => simp [ofRead]

theorem Ending.ofRead_eq_early_iff {read : Option (List Char × List Char)} :
    ofRead read = early ↔ ∃ w code, code ≠ [] ∧ read = some (w, code) := by
  match read with
  | none | some (_, []) | some (_, _ :: _) => simp [ofRead]

/-- The number of backslashes that a text ends with. -/
def slashes (u : List Char) : Nat :=
  (u.rtakeWhile (· = '\\')).length

theorem slashes_append_slash (u : List Char) : slashes (u ++ ['\\']) = slashes u + 1 :=
  Text.trailing_concat_self '\\' u

theorem slashes_append_of_ne (u : List Char) (h : c ≠ '\\') : slashes (u ++ [c]) = 0 :=
  Text.trailing_concat_of_ne h u

/-- The runs of backslashes before the quotes of a text that stands behind `u` are of even length. -/
def PairedFrom (u v : List Char) : Prop :=
  ∀ before after, v = before ++ '\'' :: after → slashes (u ++ before) % 2 = 0

theorem pairedFrom_cons {u : List Char} :
    PairedFrom u (c :: v) ↔ (c = '\'' → slashes u % 2 = 0) ∧ PairedFrom (u ++ [c]) v := by
  constructor
  · intro h
    refine ⟨fun hc => ?_, fun before after heq => ?_⟩
    · simpa using h [] v (by rw [hc, List.nil_append])
    · simpa using h (c :: before) after (by rw [heq, List.cons_append])
  · rintro ⟨hfirst, hrest⟩ before after heq
    cases before with
    | nil =>
      cases heq
      simpa using hfirst rfl
    | cons d before =>
      cases heq
      simpa using hrest before after rfl

/-- The ending, told by the backslashes behind `u`. The induction passes one character at a time from the
value to `u`; a backslash is pending where `u` ends with an odd number of them. -/
theorem ending_eq {u : List Char} {odd : Bool} (hodd : slashes u % 2 = odd.toNat) :
    (Ending.ofRead (readInner? (pending odd ++ (escape v ++ ['\'']))) = .last ↔
      PairedFrom u v ∧ slashes (u ++ v) % 2 = 0) ∧
    (Ending.ofRead (readInner? (pending odd ++ (escape v ++ ['\'']))) = .early ↔ ¬ PairedFrom u v) := by
  induction v generalizing odd u with
  | nil =>
    have hpaired : PairedFrom u [] := fun before after heq => by simp at heq
    have hread : Ending.ofRead (readInner? (pending odd ++ (escape [] ++ ['\'']))) =
        if odd then .never else .last := by
      cases odd <;> rfl
    rw [hread, List.append_nil, hodd]
    cases odd <;> simp [hpaired]
  | cons c v ih =>
    have hassoc : u ++ c :: v = u ++ [c] ++ v := by simp
    rw [readInner?_pending_cons, pairedFrom_cons, hassoc, hodd]
    by_cases hslash : c = '\\'
    · subst hslash
      have hnext : slashes (u ++ ['\\']) % 2 = (!odd).toNat := by
        rw [slashes_append_slash]
        cases odd with
        | true | false =>
          simp only [Bool.toNat_true, Bool.toNat_false, Bool.not_true, Bool.not_false] at hodd ⊢
          omega
      cases odd <;> simpa using ih hnext
    have hnext : slashes (u ++ [c]) % 2 = Bool.toNat false := by
      rw [slashes_append_of_ne u hslash]
      rfl
    by_cases hquote : c = '\''
    · subst hquote
      cases odd with
      | true =>
        have hearly : Ending.ofRead (some (['\\'], escape v ++ ['\''])) = .early := by
          cases escape v <;> rfl
        simp [hearly]
      | false => simpa using ih hnext
    · simpa [hslash, hquote] using ih hnext

/-! ## Attributes of letters -/

theorem toNat_lt_of_isAlpha (h : c.isAlpha = true) : c.toNat < 128 :=
  toNat_lt_of_isTagChar (by simp [isTagChar, Char.isAlphanum, h])

theorem isAlpha_of_mem_camelCase {name : List Char} (h : ∀ c ∈ name, c.isAlpha = true) :
    ∀ c ∈ Text.camelCase name, c.isAlpha = true := by
  refine Text.of_mem_camelCase (p := fun c => c.isAlpha = true) ?_ ?_ fun c hc _ => h c hc
  · intro c hc d hd
    have hascii := toNat_lt_of_isAlpha hc
    have all := of_ascii (q := fun c => !c.isAlpha || c.toUpper.isAlpha) (by decide +kernel) hascii
    rw [hc, Bool.not_true, Bool.false_or] at all
    rw [Text.upperChar, if_pos hascii] at hd
    rwa [List.mem_singleton.1 hd]
  · intro c hc d hd
    have hascii := toNat_lt_of_isAlpha hc
    have all := of_ascii (q := fun c => !c.isAlpha || c.toLower.isAlpha) (by decide +kernel) hascii
    rw [hc, Bool.not_true, Bool.false_or] at all
    rw [Text.lowerChar, if_pos hascii] at hd
    rwa [List.mem_singleton.1 hd]

/-- An attribute whose name consists of letters is literal. -/
theorem parse_quotedText_of_isAlpha {name : List Char} (hname : ∀ c ∈ name, c.isAlpha = true)
    (hne : name ≠ []) (hv : '"' ∉ v) :
    parse (quotedText name v) =
      [(String.ofList (Text.camelCase name), String.ofList (literal v))] := by
  have hplain : ∀ c ∈ name, isPlainNameChar c = true := fun c hc => by
    have all := of_ascii (q := fun c => !c.isAlpha || isPlainNameChar c) (by decide +kernel)
      (toNat_lt_of_isAlpha (hname c hc))
    simpa [hname c hc] using all
  have hunbound : ¬ bindMarker <+: Text.camelCase name := fun hprefix => by
    have hcolon : ':' ∈ Text.camelCase name := hprefix.subset (by decide)
    exact absurd (isAlpha_of_mem_camelCase hname ':' hcolon) (by decide)
  have hentry := Written.entry_eq name (some ('"' :: v ++ ['"']))
  simp only [unquote_quoted (.inl rfl), if_neg hunbound] at hentry
  rw [parse_quotedText hplain hne hv, hentry]

/-- The literal of an attribute is its value exactly where each backslash stands before another character
than a backslash or a quote. It ends at its last character exactly where the runs of backslashes before the
quotes of the value and at its end are of even length, and before that exactly where one before a quote is
not. -/
theorem parse_literal_of_isAlpha {name : List Char} (hname : ∀ c ∈ name, c.isAlpha = true)
    (hne : name ≠ []) (hv : '"' ∉ v) :
    ∃ emitted : List Char,
      parse (quotedText name v) = [(String.ofList (Text.camelCase name), String.ofList emitted)] ∧
      (readLiteral? emitted = some (v, []) ↔ PlainSlashes v) ∧
      ((∃ w, readLiteral? emitted = some (w, [])) ↔
        (∀ before after, v = before ++ '\'' :: after → slashes before % 2 = 0) ∧ slashes v % 2 = 0) ∧
      ((∃ w code, code ≠ [] ∧ readLiteral? emitted = some (w, code)) ↔
        ∃ before after, v = before ++ '\'' :: after ∧ slashes before % 2 = 1) := by
  have hread : readLiteral? (literal v) = readInner? (pending false ++ (escape v ++ ['\''])) := rfl
  have hstart : slashes [] % 2 = Bool.toNat false := rfl
  obtain ⟨hlast, hearly⟩ := ending_eq (v := v) hstart
  refine ⟨literal v, parse_quotedText_of_isAlpha hname hne hv, ?_, ?_, ?_⟩
  · rw [hread]
    exact readInner?_eq_self_iff false
  · rw [hread, ← Ending.ofRead_eq_last_iff, hlast]
    rfl
  · rw [hread, ← Ending.ofRead_eq_early_iff, hearly]
    simp [PairedFrom]

/-- A value with an apostrophe, and with a backslash before a letter. -/
theorem parse_literal_of_path :
    (∀ c ∈ "title".toList, c.isAlpha = true) ∧ "title".toList ≠ [] ∧ '"' ∉ "it's C:\\dir".toList ∧
      ∃ emitted : List Char,
        parse "title=\"it's C:\\dir\"".toList = [("title", String.ofList emitted)] ∧
          readLiteral? emitted = some ("it's C:\\dir".toList, []) := by
  have hname : ∀ c ∈ "title".toList, c.isAlpha = true := List.all_eq_true.1 (by decide)
  have hv : '"' ∉ "it's C:\\dir".toList := by decide
  have hplain : PlainSlashes "it's C:\\dir".toList := by simp [plainSlashes_cons, plainSlashes_nil]
  obtain ⟨emitted, hparse, hvalue, -⟩ := parse_literal_of_isAlpha hname (by decide) hv
  exact ⟨hname, by decide, hv, emitted, hparse, hvalue.2 hplain⟩

/-- A backslash at the end of a value takes the closing quote with it, and one before an apostrophe ends the
literal. -/
theorem parse_literal_of_slash :
    parse "a=\"\\\"".toList = [("a", "'\\'")] ∧ readLiteral? "'\\'".toList = none ∧
      parse "a=\"\\'x\"".toList = [("a", "'\\\\'x'")] ∧
      readLiteral? "'\\\\'x'".toList = some (['\\'], "x'".toList) := by
  have letter : ∀ c ∈ ['a'], c.isAlpha = true := List.all_eq_true.1 (by decide)
  refine ⟨?_, by decide, ?_, by decide⟩
  · exact parse_quotedText_of_isAlpha (v := ['\\']) letter (by decide) (by decide)
  · exact parse_quotedText_of_isAlpha (v := "\\'x".toList) letter (by decide) (by decide)

end ComponentTags.Attribute
