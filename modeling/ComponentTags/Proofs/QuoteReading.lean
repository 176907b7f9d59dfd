import ComponentTags.Proofs.Compilation
import ComponentTags.Proofs.LineReading

/-!
# Quotes and the end of a self-closing element

The end of a self-closing element is looked for behind its name: on the line, and not behind the first `>`
outside quotes, where a quote opens a run if the same quote follows on the line. If that `>` stands behind a
`/` outside quotes, then the element is the text up to it. But the reading also tries each quote as an
ordinary character, so it may find a `/>` where the quotes pair otherwise: each `>` in front of the end of an
element is enclosed by two equal quotes, but perhaps by the closing quote of one value and the opening quote
of another one.
-/

namespace ComponentTags.Markup

open Text (isInlineBlank)

variable {s inner text rest u v : List Char} {c quote : Char}

/-! ## The first end outside quotes -/

/-- A quote opens a run if the same quote follows on the line. -/
def opensRun (c : Char) (s : List Char) : Bool :=
  (c == '"' || c == '\'') && (s.takeWhile (· != '\n')).contains c

/-- The text up to the first `>` outside quotes on the line, and what follows it, read from outside quotes or
from inside a run. -/
def unquotedEnd? : Option Char → List Char → Reading
  | _, [] => none
  | inside, c :: s =>
    if c = '\n' then none
    else
      match inside with
      | some quote => Reading.extend c (unquotedEnd? (if c = quote then none else some quote) s)
      | none =>
        if c = '>' then some ([], s)
        else Reading.extend c (unquotedEnd? (if opensRun c s then some c else none) s)

@[simp] theorem unquotedEnd?_feed (inside : Option Char) (s : List Char) :
    unquotedEnd? inside ('\n' :: s) = none := rfl

theorem unquotedEnd?_outside (hn : c ≠ '\n') (s : List Char) :
    unquotedEnd? none (c :: s) =
      if c = '>' then some ([], s)
      else Reading.extend c (unquotedEnd? (if opensRun c s then some c else none) s) :=
  if_neg hn

theorem unquotedEnd?_inside (hn : c ≠ '\n') (quote : Char) (s : List Char) :
    unquotedEnd? (some quote) (c :: s) =
      Reading.extend c (unquotedEnd? (if c = quote then none else some quote) s) :=
  if_neg hn

theorem unquotedEnd?_append {inside : Option Char} (h : unquotedEnd? inside s = some (text, rest)) :
    s = text ++ '>' :: rest := by
  induction s generalizing inside text with
  | nil => cases h
  | cons c s ih =>
    have step {inside : Option Char} (h : Reading.extend c (unquotedEnd? inside s) = some (text, rest)) :
        c :: s = text ++ '>' :: rest := by
      obtain ⟨inner, rfl, hinner⟩ := Reading.extend_eq_cons h
      rw [ih hinner, List.cons_append]
    unfold unquotedEnd? at h
    split at h
    · cases h
    · split at h
      · exact step h
      · split at h
        · rename_i hend
          cases h
          rw [hend, List.nil_append]
        · exact step h

theorem ne_of_isInlineBlank {d : Char} (hd : isInlineBlank d = false) (h : isInlineBlank c = true) :
    c ≠ d := by
  rintro rfl
  rw [h] at hd
  cases hd

/-- White space on the line is passed over. -/
theorem unquotedEnd?_append_of_blank {gap : List Char} (h : ∀ c ∈ gap, isInlineBlank c = true)
    (s : List Char) : unquotedEnd? none (gap ++ s) = Reading.prepend gap (unquotedEnd? none s) := by
  induction gap with
  | nil => simp
  | cons c gap ih =>
    have other {d : Char} (hd : isInlineBlank d = false) : c ≠ d :=
      ne_of_isInlineBlank hd (h c (by simp))
    have hopens : opensRun c (gap ++ s) = false := by
      simp [opensRun, other (d := '"') (by decide), other (d := '\'') (by decide)]
    rw [List.cons_append, unquotedEnd?_outside (other (by decide)), if_neg (other (by decide)), hopens,
      if_neg (by decide), ih fun d hd => h d (by simp [hd]), Reading.extend_prepend]

theorem selfClosingEnd?_eq_some (h : selfClosingEnd? s = some rest) :
    ∃ gap, s = gap ++ '/' :: '>' :: rest ∧ ∀ c ∈ gap, isInlineBlank c = true := by
  obtain ⟨gap, hs, hgap, -⟩ := runsToEnd_of_selfClosingEnd? h
  exact ⟨gap, by simpa using hs, hgap⟩

/-- At the end of an element, behind white space or not, the first end is the one of the element. -/
theorem unquotedEnd?_of_selfClosingEnd? (h : selfClosingEnd? s = some rest) :
    ∃ gap, (∀ c ∈ gap, isInlineBlank c = true) ∧ unquotedEnd? none s = some (gap ++ ['/'], rest) := by
  obtain ⟨gap, rfl, hgap⟩ := selfClosingEnd?_eq_some h
  refine ⟨gap, hgap, ?_⟩
  rw [unquotedEnd?_append_of_blank hgap]
  simp [unquotedEnd?, opensRun, Reading.extend, Reading.prepend]

/-- A run that is read to its end ends on the line. -/
theorem mem_line_of_past (hquote : quote = '"' ∨ quote = '\'')
    (h : (readLine s).past quote = some (text, rest)) : quote ∈ s.takeWhile (· != '\n') := by
  induction s generalizing text with
  | nil => simp [readLine, LineReading.past] at h
  | cons c s ih =>
    by_cases hn : c = '\n'
    · simp [readLine, hn, LineReading.past] at h
    rw [past_cons hquote hn] at h
    obtain ⟨inner, rfl, hinner⟩ := Reading.extend_eq_cons h
    rw [List.takeWhile_cons_of_pos (by simpa using hn)]
    split at hinner
    · rename_i hc
      exact List.mem_cons.2 (.inl hc.symm)
    · exact List.mem_cons_of_mem c (ih hinner)

/-- The reading comes to its end in front of `rest` and gives `inner` without the white space at its end. -/
def Reading.Reaches (r : Reading) (inner rest : List Char) : Prop :=
  ∃ text gap, inner = text ++ gap ∧ (∀ c ∈ gap, isInlineBlank c = true) ∧ r = some (text, rest)

theorem Reading.Reaches.extend {r : Reading} (h : r.Reaches inner rest) (c : Char) :
    (Reading.extend c r).Reaches (c :: inner) rest := by
  obtain ⟨text, gap, rfl, hgap, rfl⟩ := h
  exact ⟨c :: text, gap, rfl, hgap, rfl⟩

/-- A character that opens no run is read as it is, unless the element ends there. -/
theorem here_reaches_of_character (hn : c ≠ '\n') (hend : c ≠ '>') (hopens : opensRun c s = false)
    (h : unquotedEnd? none (c :: s) = some (c :: inner ++ ['/'], rest))
    (hbehind : (readLine s).here.Reaches inner rest) :
    (readLine (c :: s)).here.Reaches (c :: inner) rest := by
  cases hclose : selfClosingEnd? (c :: s) with
  | some r =>
    obtain ⟨gap, hgap, hread⟩ := unquotedEnd?_of_selfClosingEnd? hclose
    rw [h, Option.some.injEq, Prod.mk.injEq] at hread
    obtain ⟨hinner, rfl⟩ := hread
    exact ⟨[], gap, List.append_cancel_right hinner, hgap, here_of_selfClosingEnd? hclose⟩
  | none =>
    have hrun : (if c = '"' ∨ c = '\'' then (readLine s).past c else none) = none := by
      split
      · rename_i hquote
        cases hpast : (readLine s).past c with
        | none => rfl
        | some found =>
          have hmem := mem_line_of_past hquote hpast
          have paired : opensRun c s = true := by
            rcases hquote with rfl | rfl <;> simpa [opensRun] using hmem
          rw [hopens] at paired
          cases paired
      · rfl
    rw [here_cons hn hclose, hrun, if_neg hend]
    exact hbehind.extend c

/-- Where the first end outside quotes stands behind a slash outside quotes, the line is read up to it. A run
is tried before the quote alone, and it is read to its end, so nothing else is tried. -/
theorem reaches_of_unquotedEnd? :
    (unquotedEnd? none s = some (inner ++ ['/'], rest) → (readLine s).here.Reaches inner rest) ∧
    ∀ quote, quote = '"' ∨ quote = '\'' → unquotedEnd? (some quote) s = some (inner ++ ['/'], rest) →
      ((readLine s).past quote).Reaches inner rest := by
  induction s generalizing inner with
  | nil => simp [unquotedEnd?]
  | cons c s ih =>
    by_cases hn : c = '\n'
    · subst hn
      simp
    -- what stands behind the first character of the element is read in the same way
    have behind {inside : Option Char}
        (h : Reading.extend c (unquotedEnd? inside s) = some (inner ++ ['/'], rest)) :
        inner = [] ∧ c = '/' ∧ unquotedEnd? inside s = some ([], rest) ∨
          ∃ inner', inner = c :: inner' ∧ unquotedEnd? inside s = some (inner' ++ ['/'], rest) := by
      obtain ⟨t, ht, hread⟩ := Reading.extend_eq_cons h
      cases inner with
      | nil =>
        cases ht
        exact .inl ⟨rfl, rfl, hread⟩
      | cons d inner =>
        cases ht
        exact .inr ⟨inner, rfl, hread⟩
    refine ⟨fun h => ?_, fun quote hquote h => ?_⟩
    · have hwhole := h
      rw [unquotedEnd?_outside hn] at h
      split at h
      · cases inner <;> cases h
      rename_i hend
      rcases behind h with ⟨rfl, rfl, hread⟩ | ⟨inner', rfl, hread⟩
      · -- a slash with the end behind it
        have hs : s = '>' :: rest := unquotedEnd?_append hread
        rw [hs]
        exact ⟨[], [], rfl, by simp, here_of_selfClosingEnd? rfl⟩
      cases hopens : opensRun c s with
      | true =>
        have hquote : c = '"' ∨ c = '\'' := by
          simp only [opensRun, Bool.and_eq_true, Bool.or_eq_true, beq_iff_eq] at hopens
          exact hopens.1
        rw [hopens, if_pos rfl] at hread
        obtain ⟨text, gap, rfl, hgap, hpast⟩ := ih.2 c hquote hread
        exact ⟨c :: text, gap, rfl, hgap, here_cons_of_past hquote hpast⟩
      | false =>
        rw [hopens, if_neg (by decide)] at hread
        exact here_reaches_of_character hn hend hopens hwhole (ih.1 hread)
    · rw [unquotedEnd?_inside hn] at h
      rw [past_cons hquote hn]
      rcases behind h with ⟨rfl, rfl, hread⟩ | ⟨inner', rfl, hread⟩
      · -- a run does not end at a slash
        have hs : s = '>' :: rest := unquotedEnd?_append hread
        have hslash : '/' ≠ quote := by rcases hquote with rfl | rfl <;> decide
        rw [hs, if_neg hslash, unquotedEnd?_inside (by decide)] at hread
        obtain ⟨inner, hinner, -⟩ := Reading.extend_eq_cons hread
        cases hinner
      · split at hread
        · rename_i hc
          rw [if_pos hc]
          exact (ih.1 hread).extend c
        · rename_i hc
          rw [if_neg hc]
          exact (ih.2 quote hquote hread).extend c

/-! ## Windows -/

/-- The texts that may stand between the name of an element and its end: quoted runs and other characters,
among which a quote may be, but no `>` and no line feed. -/
inductive IsWindow : List Char → Prop where
  | nil : IsWindow []
  | character {c : Char} {u : List Char} (notEnd : c ≠ '>') (notFeed : c ≠ '\n') (rest : IsWindow u) :
      IsWindow (c :: u)
  | run {quote : Char} {v u : List Char} (isQuote : quote = '"' ∨ quote = '\'') (inside : quote ∉ v)
      (feedless : '\n' ∉ v) (rest : IsWindow u) : IsWindow (quote :: (v ++ quote :: u))

theorem IsWindow.append (hu : IsWindow u) (hv : IsWindow v) : IsWindow (u ++ v) := by
  induction hu with
  | nil => exact hv
  | character notEnd notFeed _ ih => exact .character notEnd notFeed ih
  | run isQuote inside feedless _ ih => simpa using IsWindow.run isQuote inside feedless ih

theorem isWindow_of_blank {gap : List Char} (h : ∀ c ∈ gap, isInlineBlank c = true) : IsWindow gap := by
  induction gap with
  | nil => exact .nil
  | cons c gap ih =>
    have hc := h c (by simp)
    exact .character (ne_of_isInlineBlank (by decide) hc) (ne_of_isInlineBlank (by decide) hc)
      (ih fun d hd => h d (by simp [hd]))

/-- What is read is a window, and from inside a run it is the rest of the run and a window. -/
theorem isWindow_of_readLine :
    ((readLine s).here = some (text, rest) → IsWindow text) ∧
    ∀ quote, quote = '"' ∨ quote = '\'' → (readLine s).past quote = some (text, rest) →
      ∃ v u, text = v ++ quote :: u ∧ quote ∉ v ∧ '\n' ∉ v ∧ IsWindow u := by
  induction s generalizing text with
  | nil => simp [readLine, LineReading.past]
  | cons c s ih =>
    by_cases hn : c = '\n'
    · subst hn
      simp [readLine, LineReading.past]
    refine ⟨fun h => ?_, fun quote hquote h => ?_⟩
    · cases hclose : selfClosingEnd? (c :: s) with
      | some r =>
        rw [here_of_selfClosingEnd? hclose] at h
        cases h
        exact .nil
      | none =>
        rw [here_cons hn hclose] at h
        obtain ⟨inner, rfl, hinner⟩ := Reading.extend_eq_cons h
        rcases Option.or_eq_some_iff.1 hinner with hrun | ⟨-, hcharacter⟩
        · split at hrun
          · rename_i hquote
            obtain ⟨v, u, rfl, hinside, hfeed, hu⟩ := ih.2 c hquote hrun
            exact .run hquote hinside hfeed hu
          · cases hrun
        · split at hcharacter
          · cases hcharacter
          · rename_i hend
            exact .character hend hn (ih.1 hcharacter)
    · rw [past_cons hquote hn] at h
      obtain ⟨inner, rfl, hinner⟩ := Reading.extend_eq_cons h
      split at hinner
      · rename_i hc
        exact ⟨[], inner, by rw [hc]; rfl, by simp, by simp, ih.1 hinner⟩
      · rename_i hc
        obtain ⟨v, u, rfl, hinside, hfeed, hu⟩ := ih.2 quote hquote hinner
        refine ⟨c :: v, u, rfl, ?_, ?_, hu⟩
        · rw [List.mem_cons, not_or]
          exact ⟨Ne.symm hc, hinside⟩
        · rw [List.mem_cons, not_or]
          exact ⟨Ne.symm hn, hfeed⟩

/-- A character can always be read alone, if the line can be read behind it. -/
theorem exists_here_cons (hend : c ≠ '>') (hn : c ≠ '\n') (h : ∃ found, (readLine s).here = some found) :
    ∃ found, (readLine (c :: s)).here = some found := by
  obtain ⟨found, h⟩ := h
  cases hclose : selfClosingEnd? (c :: s) with
  | some r => exact ⟨_, here_of_selfClosingEnd? hclose⟩
  | none =>
    rw [here_cons hn hclose, if_neg hend, h]
    cases (if c = '"' ∨ c = '\'' then (readLine s).past c else none) with
    | none => exact ⟨_, rfl⟩
    | some first => exact ⟨_, rfl⟩

/-- Behind a window, a line is read if it ends there. -/
theorem exists_here_of_isWindow (h : IsWindow u) (rest : List Char) :
    ∃ found, (readLine (u ++ '/' :: '>' :: rest)).here = some found := by
  induction h with
  | nil => exact ⟨_, here_of_selfClosingEnd? rfl⟩
  | character notEnd notFeed _ ih => exact exists_here_cons notEnd notFeed ih
  | run isQuote inside feedless _ ih =>
    obtain ⟨⟨text, r⟩, hread⟩ := ih
    have hrun := here_quoted isQuote inside feedless hread
    exact ⟨_, by simpa using hrun⟩

/-- White space in front of a window is no part of it. -/
theorem IsWindow.dropWhile (h : IsWindow u) (s : List Char) :
    ∃ w, IsWindow w ∧ (u ++ '/' :: s).dropWhile isInlineBlank = w ++ '/' :: s := by
  induction h with
  | nil => exact ⟨[], .nil, List.dropWhile_cons_of_neg (by decide)⟩
  | @character c u notEnd notFeed rest ih =>
    by_cases hc : isInlineBlank c = true
    · rwa [List.cons_append, List.dropWhile_cons_of_pos hc]
    · exact ⟨c :: u, .character notEnd notFeed rest, List.dropWhile_cons_of_neg hc⟩
  | @run quote v u isQuote inside feedless rest ih =>
    have hquote : ¬ isInlineBlank quote = true := by rcases isQuote with rfl | rfl <;> decide
    exact ⟨_, .run isQuote inside feedless rest, List.dropWhile_cons_of_neg hquote⟩

/-! ## Elements -/

/-- The line behind a name is closed: its first `>` outside quotes stands behind `inner` and a slash. -/
def ClosesAt (line inner rest : List Char) : Prop :=
  unquotedEnd? none line = some (inner ++ ['/'], rest)

/-- The text of a self-closing element, whose attribute text is `inner` without the white space around it. -/
structure IsElement (name gap inner source text : List Char) : Prop where
  source_eq : source = '<' :: (gap ++ (name ++ (inner ++ ['/', '>'])))
  gapBlank : ∀ c ∈ gap, isInlineBlank c = true
  ends : endsName (inner ++ ['/', '>']) = true
  window : IsWindow inner
  trimmed : ∃ lead trail, inner = lead ++ (text ++ trail) ∧ (∀ c ∈ lead, isInlineBlank c = true) ∧
    ∀ c ∈ trail, isInlineBlank c = true

variable {name gap line : List Char}

theorem afterName_append_of_blank {blank : Char → Bool} (h : ∀ c ∈ gap, blank c = true)
    (hname : afterName blank name s = some rest) : afterName blank name (gap ++ s) = some rest := by
  induction gap with
  | nil => exact hname
  | cons c gap ih =>
    rw [List.cons_append, afterName, if_pos (h c (by simp)), ih fun d hd => h d (by simp [hd])]

/-- At a name that is complete, the line behind it decides. -/
theorem selfClosing?_of_head (hname : IsTagName name) (hgap : ∀ c ∈ gap, isInlineBlank c = true)
    (hends : endsName line = true) :
    selfClosing? name ('<' :: (gap ++ (name ++ line))) =
      (readLine (line.dropWhile isInlineBlank)).here := by
  have hfound : afterName isInlineBlank name (gap ++ (name ++ line)) = some line :=
    afterName_append_of_blank hgap (afterName_tagName hname isTagChar_not_inlineBlank)
  simp [selfClosing?, hfound, hends]

theorem endsName_append_cons {c : Char} (h : endsName (u ++ c :: v) = true) (w : List Char) :
    endsName (u ++ c :: w) = true := by
  cases u with
  | nil => exact h
  | cons d u => exact h

/-- A line that is read behind a name is a window, with white space around its text, and a `/>`. -/
theorem exists_window_of_here (h : (readLine (line.dropWhile isInlineBlank)).here = some (text, rest)) :
    ∃ lead trail, line = lead ++ (text ++ trail) ++ '/' :: '>' :: rest ∧
      (∀ c ∈ lead, isInlineBlank c = true) ∧ (∀ c ∈ trail, isInlineBlank c = true) ∧
      IsWindow (lead ++ (text ++ trail)) := by
  obtain ⟨trail, hline, htrail, -⟩ := (readLine_runsToEnd _).1 h
  have hlead : ∀ c ∈ line.takeWhile isInlineBlank, isInlineBlank c = true :=
    List.all_eq_true.1 List.all_takeWhile
  refine ⟨line.takeWhile isInlineBlank, trail, ?_, hlead, htrail, ?_⟩
  · rw [List.append_assoc, ← hline, List.takeWhile_append_dropWhile]
  · exact (isWindow_of_blank hlead).append ((isWindow_of_readLine.1 h).append (isWindow_of_blank htrail))

theorem isElement_of_here (hgap : ∀ c ∈ gap, isInlineBlank c = true)
    (hends : endsName (inner ++ '/' :: '>' :: rest) = true)
    (h : (readLine ((inner ++ '/' :: '>' :: rest).dropWhile isInlineBlank)).here = some (text, rest)) :
    IsElement name gap inner ('<' :: (gap ++ (name ++ (inner ++ ['/', '>'])))) text := by
  obtain ⟨lead, trail, hline, hlead, htrail, hwindow⟩ := exists_window_of_here h
  have hinner := List.append_cancel_right hline
  exact ⟨rfl, hgap, endsName_append_cons hends _, hinner ▸ hwindow, lead, trail, hinner, hlead, htrail⟩

/-- Where an element is accepted, it stands with its name, its window and its end. -/
theorem isElement_of_selfClosing? (h : selfClosing? name s = some (text, rest)) :
    ∃ gap inner, IsElement name gap inner ('<' :: (gap ++ (name ++ (inner ++ ['/', '>'])))) text ∧
      s = '<' :: (gap ++ (name ++ (inner ++ ['/', '>']))) ++ rest ∧
      (readLine ((inner ++ '/' :: '>' :: rest).dropWhile isInlineBlank)).here = some (text, rest) := by
  obtain ⟨r, after, rfl, hname, hends, hread⟩ := selfClosing?_eq_some h
  obtain ⟨gap, rfl, hgap⟩ := eq_append_of_afterName hname
  obtain ⟨lead, trail, rfl, -⟩ := exists_window_of_here hread
  exact ⟨gap, _, isElement_of_here (List.all_eq_true.1 hgap) hends hread, by simp, hread⟩

/-- An element is accepted behind a name exactly where some window reaches up to a `/>`. -/
theorem exists_selfClosing?_iff (hname : IsTagName name) (hgap : ∀ c ∈ gap, isInlineBlank c = true)
    (hends : endsName line = true) :
    (∃ found, selfClosing? name ('<' :: (gap ++ (name ++ line))) = some found) ↔
      ∃ inner rest, line = inner ++ '/' :: '>' :: rest ∧ IsWindow inner := by
  rw [selfClosing?_of_head hname hgap hends]
  constructor
  · rintro ⟨⟨text, rest⟩, hread⟩
    obtain ⟨lead, trail, hline, -, -, hwindow⟩ := exists_window_of_here hread
    exact ⟨_, rest, hline, hwindow⟩
  · rintro ⟨inner, rest, rfl, hwindow⟩
    obtain ⟨w, hw, hdrop⟩ := hwindow.dropWhile ('>' :: rest)
    rw [hdrop]
    exact exists_here_of_isWindow hw rest

/-- A line that is closed is read up to that end. -/
theorem here_of_closesAt (h : ClosesAt line inner rest) :
    ∃ text, (readLine (line.dropWhile isInlineBlank)).here = some (text, rest) := by
  have hlead : ∀ c ∈ line.takeWhile isInlineBlank, isInlineBlank c = true :=
    List.all_eq_true.1 List.all_takeWhile
  have hcut := unquotedEnd?_append_of_blank hlead (line.dropWhile isInlineBlank)
  have hclosed : unquotedEnd? none line = some (inner ++ ['/'], rest) := h
  rw [List.takeWhile_append_dropWhile, hclosed] at hcut
  obtain ⟨⟨t, r⟩, hread, heq⟩ := Option.map_eq_some_iff.1 hcut.symm
  obtain ⟨hinner, rfl⟩ := Prod.mk.inj heq
  rcases List.eq_nil_or_concat t with rfl | ⟨t, c, rfl⟩
  · -- the slash would be white space
    have hslash : '/' ∈ line.takeWhile isInlineBlank := by
      rw [List.append_nil] at hinner
      simp [hinner]
    exact absurd (hlead _ hslash) (by decide)
  · rw [List.concat_eq_append] at hread hinner
    rw [← List.append_assoc] at hinner
    obtain ⟨-, hc⟩ := List.append_inj' hinner rfl
    cases hc
    obtain ⟨text, trail, -, -, hhere⟩ := reaches_of_unquotedEnd?.1 hread
    exact ⟨text, hhere⟩

/-- An element that is read ends at the first `>` outside quotes exactly where the line is closed. -/
theorem closesAt_iff (h : (readLine ((inner ++ '/' :: '>' :: rest).dropWhile isInlineBlank)).here =
      some (text, rest)) :
    ClosesAt (inner ++ '/' :: '>' :: rest) inner rest ↔
      ∃ inner' rest', ClosesAt (inner ++ '/' :: '>' :: rest) inner' rest' := by
  refine ⟨fun hclosed => ⟨_, _, hclosed⟩, ?_⟩
  rintro ⟨inner', rest', hclosed⟩
  obtain ⟨text', hread⟩ := here_of_closesAt hclosed
  rw [h] at hread
  cases hread
  have hsplit := unquotedEnd?_append hclosed
  have hsame : inner ++ ['/'] ++ '>' :: rest = inner' ++ ['/'] ++ '>' :: rest := by
    simpa using hsplit
  have hinner := List.append_cancel_right hsame
  obtain rfl := List.append_cancel_right hinner
  exact hclosed

end ComponentTags.Markup

namespace ComponentTags.Stage

open Markup
open Text (isInlineBlank)

/-- What the stage of self-closing elements rewrites. An element is a name with a window behind it, in which
each `>` is enclosed by two equal quotes. It ends at the first `>` outside quotes exactly where the line
behind its name is closed; there, the text up to that `>` is the element, wherever the reading comes to such a
name. Else, quotes that pair otherwise may still make an element: one is found behind a name exactly where
some window reaches up to a `/>`. -/
theorem run_selfClosing {t : Target} (accepted : t.nameFault? = none) (s : List Char) :
    let pieces := (Markup.selfClosing t.elementName).pieces s
    selfClosing.run t s =
        .ok (pieces.flatMap (·.replaceWith t.elementText), pieces.countP (·.isOccurrence)) ∧
      pieces.flatMap (·.source) = s ∧
      (∀ before source text behind, pieces = before ++ .occurrence source text :: behind →
        ∃ gap inner, IsElement t.elementName gap inner source text ∧
          (ClosesAt (inner ++ '/' :: '>' :: behind.flatMap (·.source)) inner (behind.flatMap (·.source)) ↔
            ∃ inner' rest, ClosesAt (inner ++ '/' :: '>' :: behind.flatMap (·.source)) inner' rest)) ∧
      ∀ before behind gap line, pieces = before ++ behind →
        behind.flatMap (·.source) = '<' :: (gap ++ (t.elementName ++ line)) →
        (∀ c ∈ gap, isInlineBlank c = true) → endsName line = true →
          (∀ inner rest, ClosesAt line inner rest →
            ∃ source text more, behind = .occurrence source text :: more ∧
              IsElement t.elementName gap inner source text) ∧
          ((∃ source text more, behind = .occurrence source text :: more) ↔
            ∃ inner rest, line = inner ++ '/' :: '>' :: rest ∧ IsWindow inner) := by
  intro pieces
  have hname := Target.elementName_isTagName accepted
  have tags := selfClosing_readsTags t.elementName
  refine ⟨?_, Pattern.flatMap_source_pieces tags s, ?_, ?_⟩
  · rw [run, Target.name_of_accepted accepted]
    rfl
  · intro before source text behind hpieces
    have hbehind := Pattern.eq_pieces_of_append tags hpieces
    obtain ⟨rest, hmatch, hsource, rfl⟩ := Pattern.match?_of_pieces_eq_cons tags hbehind.symm
    obtain ⟨gap, inner, helement, hstands, hread⟩ := isElement_of_selfClosing? hmatch
    rw [hsource] at hstands
    rw [Pattern.flatMap_source_pieces tags, List.append_cancel_right hstands]
    exact ⟨gap, inner, helement, closesAt_iff hread⟩
  · intro before behind gap line hpieces hsource hgap hends
    have hbehind := Pattern.eq_pieces_of_append tags hpieces
    rw [hsource] at hbehind
    have hmatch : (Markup.selfClosing t.elementName).match? ('<' :: (gap ++ (t.elementName ++ line))) =
        (readLine (line.dropWhile isInlineBlank)).here := selfClosing?_of_head hname hgap hends
    constructor
    · intro inner rest hclosed
      obtain ⟨text, hread⟩ := here_of_closesAt hclosed
      have hline : line = inner ++ '/' :: '>' :: rest := by simpa using unquotedEnd?_append hclosed
      have hsplit : '<' :: (gap ++ (t.elementName ++ line)) =
          '<' :: (gap ++ (t.elementName ++ (inner ++ ['/', '>']))) ++ rest := by
        rw [hline]
        simp
      rw [hread, hsplit] at hmatch
      rw [hsplit, Pattern.pieces_append_of_match hmatch] at hbehind
      rw [hline] at hends hread
      exact ⟨_, text, _, hbehind, isElement_of_here hgap hends hread⟩
    · rw [hbehind, Pattern.exists_occurrence_iff tags]
      exact exists_selfClosing?_iff hname hgap hends

/-- The elements `<x-card>`. -/
def xCard : Target := ⟨⟨"card", "card", none⟩, "x-", {}⟩

/-- A `/>` in a value is not the end. -/
theorem run_selfClosing_of_quoted :
    xCard.nameFault? = none ∧
      ∃ source text more,
        (Markup.selfClosing xCard.elementName).pieces "<x-card a=\"/>\" />\"".toList =
          .occurrence source text :: more ∧
        IsElement xCard.elementName [] " a=\"/>\" ".toList source text := by
  have accepted : xCard.nameFault? = none := by decide +kernel
  obtain ⟨-, hsource, -, hplaces⟩ := run_selfClosing accepted "<x-card a=\"/>\" />\"".toList
  have hclosed : ClosesAt " a=\"/>\" />\"".toList " a=\"/>\" ".toList "\"".toList := by
    unfold ClosesAt
    decide
  have hplace := hplaces [] _ [] " a=\"/>\" />\"".toList rfl hsource (by simp) (by decide)
  exact ⟨accepted, hplace.1 _ _ hclosed⟩

/-- The element goes on behind the first `>` outside quotes, up to the end of the element in it: the `>` is
enclosed by the closing quote of a value and the opening quote of the next. -/
theorem run_selfClosing_of_child :
    (Markup.selfClosing xCard.elementName).pieces
        ("<x-card a=\"1\"><x-icon b=\"2\"/>".toList ++ "</x-card>".toList) =
      .occurrence "<x-card a=\"1\"><x-icon b=\"2\"/>".toList "a=\"1\"><x-icon b=\"2\"".toList ::
        (Markup.selfClosing xCard.elementName).pieces "</x-card>".toList ∧
      unquotedEnd? none (" a=\"1\"><x-icon b=\"2\"/>".toList ++ "</x-card>".toList) =
        some (" a=\"1\"".toList, "<x-icon b=\"2\"/></x-card>".toList) := by
  have hmatch : selfClosing? xCard.elementName
        ("<x-card a=\"1\"><x-icon b=\"2\"/>".toList ++ "</x-card>".toList) =
      some ("a=\"1\"><x-icon b=\"2\"".toList, "</x-card>".toList) := by
    decide +kernel
  exact ⟨Pattern.pieces_append_of_match hmatch, by decide⟩

end ComponentTags.Stage
