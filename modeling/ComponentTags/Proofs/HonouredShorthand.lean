import ComponentTags.Proofs.AttributeForms
import ComponentTags.Proofs.MarkedAttributes

/-!
# Where the shorthand is honoured

Two scanners read a text of attributes. The first one writes out the shorthand and passes over every run
between two equal quotes. The second one takes the attributes and knows quotes only behind an equals sign. So
they disagree about the apostrophe in `a=it's`: to the second scanner it is a character of a bare value, to the
first one it opens a run if another apostrophe follows. An attribute with a colon in front that stands apart is
honoured exactly if it does not stand inside such a run.
-/

namespace ComponentTags.Attribute

variable {s t u v rest name : List Char} {m : Nat → Bool}

/-! ## Names with a colon in front -/

/-- The attribute stands at the start of the text or behind white space. -/
def Found.standsApart (f : Found) : Bool := isApart true f.before

theorem Found.standsApart_marked (f : Found) : (f.marked m).standsApart = f.standsApart :=
  isApart_markFrom f.before

/-- The value of a name that stands outside of all runs is kept. -/
theorem markFrom_value (hname : ∀ c ∈ name, isNameChar c = true) (hvalue : value? s = some (v, rest))
    (hout : insideRun (u ++ (name ++ s)) u.length = false) :
    markFrom (marks (u ++ (name ++ s))) (u.length + name.length + 1) v = v := by
  have hs : s = '=' :: (v ++ rest) := value?_append hvalue
  have hcopied : ∀ c ∈ name ++ ['='], IsCopied c := by
    intro c hc
    rcases List.mem_append.1 hc with hc | hc
    · exact isCopied_of_isNameChar (hname c hc)
    · rw [List.mem_singleton.1 hc]
      exact ⟨by decide, by decide, by decide⟩
  have htext : u ++ (name ++ s) = u ++ ((name ++ ['=']) ++ (v ++ rest)) := by simp [hs]
  have hplace (k : Nat) : u.length + name.length + 1 + k = u.length + ((name ++ ['=']).length + k) := by
    rw [List.length_append, List.length_singleton]
    omega
  refine markFrom_eq_self fun k hk => ?_
  rw [hplace, htext]
  rcases value?_cases hvalue with hrun | hblank
  · cases k with
    | zero => exact marks_eq_false_of_not_blank (fun c hc => (hcopied c hc).2.2) (by simp) (Nat.le_refl _)
    | succ k =>
      have hinside : insideRun (u ++ ((name ++ ['=']) ++ (v ++ rest)))
          (u.length + ((name ++ ['=']).length + (k + 1))) = true := by
        rw [htext] at hout
        rw [insideRun_add hout, List.drop_left,
          insideRun_append fun c hc => ⟨(hcopied c hc).1, (hcopied c hc).2.1⟩,
          insideRun_of_quotedRun? hrun, if_pos hk]
        exact decide_eq_true (Nat.succ_pos k)
      rw [marks, marksFrom, hinside, Bool.not_true, Bool.and_false]
  · have hwhole : u ++ ((name ++ ['=']) ++ (v ++ rest)) = u ++ ((name ++ ['='] ++ v) ++ rest) := by simp
    rw [hwhole]
    have hlength : (name ++ ['=']).length + k ≤ (name ++ ['='] ++ v).length := by
      simp only [List.length_append, List.length_singleton]
      omega
    refine marks_eq_false_of_not_blank (fun c hc => ?_) (Nat.add_pos_left (by simp) k) hlength
    exact (List.mem_append.1 hc).elim (fun hc => (hcopied c hc).2.2) (hblank c)

theorem camelCase_colon (n : List Char) : Text.camelCase (':' :: n) = ':' :: Text.continuedCase n := by
  have capital : Text.upperChar ':' = [':'] := by decide
  have small : Text.lowerChar ':' = [':'] := by decide
  rw [Text.camelCase, Text.studlyCase_eq_continuedCase (by decide), capital, List.singleton_append,
    Text.uncapitalize, small, List.singleton_append]

theorem shorthand?_isSome_of_name? {found : List Char × List Char} (h : name? (':' :: s) = some found) :
    (shorthand? (':' :: s)).isSome := by
  rw [name?_eq] at h
  cases s with
  | nil => cases h
  | cons c s =>
    refine shorthand?_isSome ?_
    cases hc : isPlainNameChar c with
    | true => rfl
    | false =>
      rw [startsName, hc] at h
      cases h

/-- A name with a colon in front that stands apart is marked exactly if it stands outside of all runs, and then
its value is kept. -/
theorem marks_of_mem_found {f : Found} {n : List Char} (h : f ∈ found [] t) (hapart : f.standsApart = true)
    (hname : f.name = ':' :: n) :
    marks t f.before.length = !insideRun t f.before.length ∧
      markFrom (marks t) (f.before.length + 1) n = n ∧
      (insideRun t f.before.length = false → (f.marked (marks t)).value = f.value) := by
  obtain ⟨u, r, rest, hbefore, rfl, hread, hvalue⟩ := of_mem_found h
  rw [List.nil_append] at hbefore
  have hr := (name?_append hread).1
  have hchars := isNameChar_of_mem_name? hread
  subst hr
  refine ⟨?_, ?_, fun hout => ?_⟩
  · have hstarts : (shorthand? (f.name ++ rest)).isSome := by
      rw [hname, List.cons_append] at hread ⊢
      exact shorthand?_isSome_of_name? hread
    rw [Found.standsApart] at hapart
    rw [marks, marksFrom, hbefore, List.take_left, List.drop_left, hstarts, ← hbefore, hapart]
    rfl
  · refine markFrom_eq_self fun k hk => ?_
    rw [hbefore, Nat.add_assoc, Nat.add_comm 1]
    exact marks_eq_false_of_not_blank (fun c hc => isBlank_of_isNameChar (hchars c hc)) (Nat.succ_pos k)
      (by simp [hname]; omega)
  · rw [Found.marked, hvalue]
    cases hread' : value? rest with
    | none => rfl
    | some p =>
      obtain ⟨v, rest'⟩ := p
      rw [hbefore] at hout ⊢
      exact congrArg some (markFrom_value hchars hread' hout)

/-- An attribute that keeps a colon in front of its name keeps it in its key. -/
theorem Written.entry_of_colon {a : Written} {n : List Char} (h : a.name = ':' :: n) :
    a.entry = (':' :: Text.continuedCase n,
      match a.value with
      | none => "true".toList
      | some v => literal (unquote v)) := by
  have hunbound : ¬ bindMarker <+: Text.camelCase a.name := by
    rw [h, camelCase_colon]
    rintro ⟨r, hr⟩
    cases hr
  have hentry := Written.entry_of_unbound hunbound
  rw [h, camelCase_colon] at hentry
  exact hentry

/-- An attribute with a colon in front, at the start or behind white space, gets the marker outside of all runs
and keeps its colon inside one. -/
theorem Found.name_marked {f : Found} {n : List Char} (h : f ∈ found [] t) (hapart : f.standsApart = true)
    (hname : f.name = ':' :: n) :
    (f.marked (marks t)).name = if insideRun t f.before.length then ':' :: n else bindMarker ++ n := by
  obtain ⟨hmark, hrest, -⟩ := marks_of_mem_found h hapart hname
  rw [Found.marked, hname]
  cases hin : insideRun t f.before.length with
  | true =>
    rw [hin] at hmark
    rw [markFrom_cons_of_not hmark, hrest]
    rfl
  | false =>
    rw [hin] at hmark
    rw [markFrom_cons_of_marked hmark, hrest]
    rfl

/-- The colon is gone exactly if it was outside of all runs. -/
theorem Found.head?_name_marked {f : Found} (h : f ∈ found [] t) (hapart : f.standsApart = true) :
    (f.marked (marks t)).name.head? ≠ some ':' ↔
      (f.name.head? = some ':' → insideRun t f.before.length = false) := by
  cases hname : f.name with
  | nil => simp [Found.marked, hname, markFrom]
  | cons c n =>
    by_cases hc : c = ':'
    · subst hc
      rw [Found.name_marked h hapart hname]
      cases insideRun t f.before.length <;> simp [bindMarker]
    · have hmark : marks t f.before.length = false := by
        obtain ⟨u, r, rest, hbefore, rfl, hread, -⟩ := of_mem_found h
        have hshorthands := marksShorthands_marks (u ++ r)
        rw [(name?_append hread).1, hname] at hshorthands ⊢
        have hbehind := hshorthands.behind
        rw [Nat.zero_add] at hbehind
        rw [hbefore, List.nil_append]
        exact hbehind.unmarked hc
      simp [Found.marked, hname, markFrom_cons_of_not hmark, hc]

/-- The entry as it stands among the attributes that were read. -/
def Written.emitted (a : Written) : String × String :=
  (String.ofList a.entry.1, String.ofList a.entry.2)

/-- What becomes of the attributes of a text: they are those of the text in which the shorthand is written out,
with the marks in them. Of those with a colon in front, at the start of the text or behind white space, the ones
outside of all runs between equal quotes are bound: the key has no colon, and the value is emitted as it is
written. The ones inside a run keep the colon in their key, and their value is a literal. So the shorthand is
honoured everywhere exactly if none of these attributes stands inside a run. -/
theorem parse_shorthand (t : List Char) :
    (found [] t).map Found.toWritten = extract t ∧
    found [] (expandShorthand t) = (found [] t).map (Found.marked (marks t)) ∧
    parse t = Assoc.ofList ((found [] t).map fun f => (f.marked (marks t)).emitted) ∧
    (∀ f ∈ found [] t, ∀ n, f.standsApart = true → f.name = ':' :: n →
      if insideRun t f.before.length then
        (f.marked (marks t)).name = ':' :: n ∧
        (f.marked (marks t)).entry = (':' :: Text.continuedCase n,
          match (f.marked (marks t)).value with
          | none => "true".toList
          | some v => literal (unquote v))
      else
        (f.marked (marks t)).name = bindMarker ++ n ∧
        (f.marked (marks t)).entry = (Text.continuedCase n, (f.value.map unquote).getD "true".toList)) ∧
    ((∀ f ∈ found [] (expandShorthand t), f.standsApart = true → f.name.head? ≠ some ':') ↔
      ∀ f ∈ found [] t, f.standsApart = true → f.name.head? = some ':' →
        insideRun t f.before.length = false) := by
  refine ⟨map_found [] t, found_expandShorthand t, ?_, fun f hf n hapart hname => ?_, ?_⟩
  · rw [parse, ← map_found [] (expandShorthand t), found_expandShorthand, List.map_map, List.map_map]
    rfl
  · have hmarked := Found.name_marked hf hapart hname
    split
    · rename_i hin
      rw [if_pos hin] at hmarked
      exact ⟨hmarked, Written.entry_of_colon hmarked⟩
    · rename_i hout
      rw [if_neg hout] at hmarked
      have hvalue := (marks_of_mem_found hf hapart hname).2.2 (Bool.eq_false_iff.2 hout)
      exact ⟨hmarked, by rw [Written.entry_of_marker hmarked, hvalue]⟩
  · rw [found_expandShorthand, List.forall_mem_map]
    refine forall₂_congr fun f hf => ?_
    rw [f.standsApart_marked]
    exact forall_congr' fun hapart => Found.head?_name_marked hf hapart

/-- Two apostrophes in bare values make a run, which hides one attribute; the next one is behind it. -/
theorem parse_shorthand_of_unpaired :
    let t := "a=it's :b=\"1\" c='x' :d=2".toList
    let hidden : Found := ⟨⟨":b".toList, some "\"1\"".toList⟩, "a=it's ".toList⟩
    let bound : Found := ⟨⟨":d".toList, some "2".toList⟩, "a=it's :b=\"1\" c='x' ".toList⟩
    hidden ∈ found [] t ∧ insideRun t hidden.before.length = true ∧
      (hidden.marked (marks t)).entry = (":b".toList, "'1'".toList) ∧
      bound ∈ found [] t ∧ insideRun t bound.before.length = false ∧
      (bound.marked (marks t)).entry = ("d".toList, "2".toList) ∧
      ¬ ∀ f ∈ found [] (expandShorthand t), f.standsApart = true → f.name.head? ≠ some ':' := by
  intro t hidden bound
  obtain ⟨-, -, -, entries, everywhere⟩ := parse_shorthand t
  have hhidden : hidden ∈ found [] t := by decide +kernel
  have hbound : bound ∈ found [] t := by decide +kernel
  have hin : insideRun t hidden.before.length = true := by decide +kernel
  have hout : insideRun t bound.before.length = false := by decide +kernel
  have hiddenEntry := entries hidden hhidden ['b'] (by decide +kernel) (by decide +kernel)
  have boundEntry := entries bound hbound ['d'] (by decide +kernel) (by decide +kernel)
  rw [if_pos hin] at hiddenEntry
  rw [hout, if_neg Bool.false_ne_true] at boundEntry
  refine ⟨hhidden, hin, hiddenEntry.2.trans (by decide +kernel), hbound, hout,
    boundEntry.2.trans (by decide +kernel), fun all => ?_⟩
  have hnone := everywhere.1 all hidden hhidden (by decide +kernel) (by decide +kernel)
  rw [hin] at hnone
  cases hnone

/-- An attribute with a colon in front, behind white space, that is a literal under a key with a colon. -/
theorem parse_shorthand_of_pair :
    parse "a=it's :b=\"1\" c='x'".toList = [("a", "'it\\'s'"), (":b", "'1'"), ("c", "'x'")] ∧
      ¬ ∀ t : List Char, ∀ f ∈ found [] (expandShorthand t), f.standsApart = true →
        f.name.head? ≠ some ':' := by
  refine ⟨by decide +kernel, fun all => ?_⟩
  exact all "a=it's :b=\"1\" c='x'".toList ⟨⟨":b".toList, some "\"1\"".toList⟩, "a=it's ".toList⟩
    (by decide +kernel) (by decide +kernel) (by decide +kernel)

end ComponentTags.Attribute
