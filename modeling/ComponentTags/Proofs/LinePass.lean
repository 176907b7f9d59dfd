import ComponentTags.Proofs.QuoteReading
import ComponentTags.Proofs.Refusal
import Mathlib.Algebra.GroupWithZero.Nat

/-!
# Self-closing elements line by line

Nothing of a self-closing element reaches over the end of a line: not the white space in front of the name, not
the name, no quoted run and not the `/>`. So a text that goes on behind a line feed is read as its part in front of
the line feed and the part behind it, each on its own, and the pass may as well run on every line alone.
-/

namespace ComponentTags

namespace Markup

open Text (isInlineBlank)

variable {name s : List Char}

/-! ## Reading up to a line feed -/

theorem afterLiteral_append_feed {literal : List Char} (feedless : '\n' ∉ literal) (s w : List Char) :
    Text.afterLiteral literal (s ++ '\n' :: w) = (Text.afterLiteral literal s).map (· ++ '\n' :: w) := by
  induction literal generalizing s with
  | nil => rfl
  | cons c literal ih =>
    rw [List.mem_cons, not_or] at feedless
    cases s with
    | nil => simp [Text.afterLiteral, Ne.symm feedless.1]
    | cons d s =>
      by_cases hcd : c = d
      · simp [Text.afterLiteral, hcd, ih feedless.2 s]
      · simp [Text.afterLiteral, hcd]

theorem afterName_append_feed (feedless : '\n' ∉ name) (s w : List Char) :
    afterName isInlineBlank name (s ++ '\n' :: w) =
      (afterName isInlineBlank name s).map (· ++ '\n' :: w) := by
  induction s with
  | nil =>
    have hfeed : isInlineBlank '\n' = false := by decide
    have hhere := afterLiteral_append_feed feedless [] w
    simpa [afterName, hfeed] using hhere
  | cons c s ih =>
    have hhere := afterLiteral_append_feed feedless (c :: s) w
    rw [List.cons_append] at hhere ⊢
    simp only [afterName, hhere, ih]
    cases afterName isInlineBlank name s with
    | none => by_cases hc : isInlineBlank c = true <;> simp [hc]
    | some rest => by_cases hc : isInlineBlank c = true <;> simp [hc]

theorem dropWhile_append_feed (s w : List Char) :
    (s ++ '\n' :: w).dropWhile isInlineBlank = s.dropWhile isInlineBlank ++ '\n' :: w := by
  have hfeed : ('\n' :: w).dropWhile isInlineBlank = '\n' :: w := List.dropWhile_cons_of_neg (by decide)
  rw [List.dropWhile_append, hfeed]
  split
  · rename_i hnil
    rw [List.isEmpty_iff.1 hnil, List.nil_append]
  · rfl

theorem endsName_append_feed (s w : List Char) : endsName (s ++ '\n' :: w) = endsName s := by
  cases s with
  | nil =>
    have hfeed : continuesName '\n' = false := by decide
    simp [endsName, hfeed]
  | cons c s => rfl

theorem selfClosingEnd?_append_feed (s w : List Char) :
    selfClosingEnd? (s ++ '\n' :: w) = (selfClosingEnd? s).map (· ++ '\n' :: w) := by
  unfold selfClosingEnd?
  rw [dropWhile_append_feed]
  generalize s.dropWhile isInlineBlank = u
  split
  · rename_i rest heq
    cases u with
    | nil => simp at heq
    | cons c u =>
      cases u with
      | nil => simp at heq
      | cons d u =>
        simp only [List.cons_append, List.cons.injEq] at heq
        obtain ⟨rfl, rfl, rfl⟩ := heq
        rfl
  · rename_i hother
    split
    · rename_i rest
      exact absurd rfl (hother (rest ++ '\n' :: w))
    · rfl

/-- A reading of a text with more text behind it. -/
def Reading.followedBy (w : List Char) : Reading → Reading :=
  Option.map fun (text, rest) => (text, rest ++ w)

theorem Reading.extend_followedBy (c : Char) (w : List Char) (r : Reading) :
    Reading.extend c (r.followedBy w) = (Reading.extend c r).followedBy w := by
  cases r <;> rfl

theorem Reading.or_followedBy (w : List Char) (r r' : Reading) :
    Option.or (r.followedBy w) (r'.followedBy w) = Reading.followedBy w (r.or r') := by
  cases r <;> rfl

theorem Reading.ite_followedBy (p : Prop) [Decidable p] (w : List Char) (r r' : Reading) :
    (if p then r.followedBy w else r'.followedBy w) = Reading.followedBy w (if p then r else r') := by
  split <;> rfl

/-- A line is read as if nothing stood behind its end, from outside quotes and from inside them. -/
theorem readLine_append_feed (s w : List Char) :
    readLine (s ++ '\n' :: w) =
      ⟨(readLine s).here.followedBy ('\n' :: w), (readLine s).pastDouble.followedBy ('\n' :: w),
        (readLine s).pastSingle.followedBy ('\n' :: w)⟩ := by
  induction s with
  | nil => rfl
  | cons c s ih =>
    by_cases hn : c = '\n'
    · subst hn
      rfl
    · have hnone : (none : Reading) = Reading.followedBy ('\n' :: w) none := rfl
      have hend := selfClosingEnd?_append_feed (c :: s) w
      rw [List.cons_append] at hend ⊢
      simp only [readLine, if_neg hn, ih, hend]
      congr 1
      · cases selfClosingEnd? (c :: s) with
        | some rest => rfl
        | none =>
          simp only [Option.map_none]
          rw [hnone, Reading.ite_followedBy, Reading.ite_followedBy, Reading.ite_followedBy,
            Reading.or_followedBy, Reading.extend_followedBy]
          rfl
      · rw [Reading.ite_followedBy, Reading.extend_followedBy]
      · rw [Reading.ite_followedBy, Reading.extend_followedBy]

/-- Whether an element starts at a place, and which one, is decided in front of the next line feed. -/
theorem selfClosing?_append_feed (feedless : '\n' ∉ name) (s w : List Char) :
    selfClosing? name (s ++ '\n' :: w) = (selfClosing? name s).followedBy ('\n' :: w) := by
  cases s with
  | nil => rfl
  | cons c s =>
    by_cases hc : c = '<'
    · subst hc
      simp only [List.cons_append, selfClosing?, afterName_append_feed feedless]
      cases afterName isInlineBlank name s with
      | none => rfl
      | some rest =>
        simp only [Option.map_some, endsName_append_feed, dropWhile_append_feed, readLine_append_feed]
        split <;> rfl
    · have hnone (r : List Char) : selfClosing? name (c :: r) = none :=
        (selfClosing_readsTags name).opens c r hc
      rw [List.cons_append, hnone, hnone]
      rfl

end Markup

namespace Pattern

variable {α : Type} {p : Pattern α} {f : α → List Char}

/-- A pattern that sees nothing of the text behind a line feed finds its occurrences line by line. -/
theorem replace_intercalate (tags : p.ReadsTags)
    (apart : ∀ s w, p.match? (s ++ '\n' :: w) =
      (p.match? s).map fun found => (found.1, found.2 ++ '\n' :: w)) (lines : List (List Char)) :
    p.replace f (['\n'].intercalate lines) = ['\n'].intercalate (lines.map (p.replace f)) ∧
      p.count (['\n'].intercalate lines) = (lines.map p.count).sum := by
  induction lines with
  | nil => simp
  | cons line lines ih =>
    cases lines with
    | nil => simp
    | cons next lines =>
      have hcut := replace_append_of_match (f := f) (v := '\n' :: ['\n'].intercalate (next :: lines)) tags
        (s := line) fun t _ _ => apart t _
      have hfeed : p.match? ('\n' :: ['\n'].intercalate (next :: lines)) = none :=
        tags.opens '\n' _ (by decide)
      rw [replace_cons_of_none hfeed, count_cons_of_none hfeed, ih.1, ih.2] at hcut
      simpa using hcut

end Pattern

namespace Stage

/-- The pass over self-closing elements runs line by line: on a text it does what it does on each of its lines,
with line feeds in between, and counts what it counts on all of them. Where the component's name is refused, it is
refused on each line as it is on the text. -/
theorem run_selfClosing_lines {t : Target} (feedless : '\n' ∉ t.elementName) (s : List Char) :
    selfClosing.run t s =
      ((s.splitOn '\n').mapM (selfClosing.run t)).map fun results =>
        (['\n'].intercalate (results.map (·.1)), (results.map (·.2)).sum) := by
  cases hfault : t.nameFault? with
  | some fault =>
    have refused (line : List Char) : selfClosing.run t line =
        .error ⟨fault, selfClosing, t.component, t.tagPrefix⟩ := run_of_nameFault? rfl hfault line
    obtain ⟨line, lines, hlines⟩ := List.exists_cons_of_ne_nil (List.splitOn_ne_nil '\n' s)
    simp [hlines, refused, List.mapM_cons, Except.map, bind, Except.bind]
  | none =>
    have runs : selfClosing.run t =
        fun line => .ok (selfClosing.rewrite t line, selfClosing.count t line) :=
      funext (run_of_runs (.inr hfault))
    obtain ⟨hrewrite, hcount⟩ := Pattern.replace_intercalate (f := t.elementText)
      (Markup.selfClosing_readsTags t.elementName) (Markup.selfClosing?_append_feed feedless) (s.splitOn '\n')
    rw [List.intercalate_splitOn] at hrewrite hcount
    have hlines : (s.splitOn '\n').mapM (selfClosing.run t) =
        .ok ((s.splitOn '\n').map fun line => (selfClosing.rewrite t line, selfClosing.count t line)) := by
      rw [runs]
      exact List.mapM_pure
    rw [hlines, runs]
    simp only [Except.map, List.map_map, Function.comp_def, Except.ok.injEq, Prod.mk.injEq]
    exact ⟨hrewrite, hcount⟩

/-- A value that goes on behind a line feed makes no element of its two lines, and its quote on the second line
does not hide the element there. -/
theorem run_selfClosing_lines_of_broken :
    '\n' ∉ xCard.elementName ∧
      (selfClosing.run xCard "<x-card a=\"\n\"/> <x-card/>\n< x-card b='/>'/>".toList).toOption =
        some (['\n'].intercalate
          ["<x-card a=\"".toList, "\"/>".toList ++ ' ' :: xCard.elementText [],
            xCard.elementText "b='/>'".toList], 2) := by
  have feedless : '\n' ∉ xCard.elementName := by decide +kernel
  refine ⟨feedless, ?_⟩
  rw [run_selfClosing_lines feedless]
  decide +kernel

end Stage

end ComponentTags
