import ComponentTags.Text.CaseTable

/-!
# Capital and small forms

The full case mappings: a form may be longer than one character, and a capital sigma becomes a final
sigma at the end of a word.
-/

namespace ComponentTags.Text

/-- The code point that a list of runs maps `n` to; a code point that no run covers stays. -/
def shiftBy (runs : List CaseRun) (n : Nat) : Nat :=
  match runs.find? (·.covers n) with
  | some run => (n + run.shift).toNat
  | none => n

/-- The form of a character under a table of expansions and runs. -/
def mapCase (expansions : List (Nat × List Nat)) (runs : List CaseRun) (c : Char) : List Char :=
  match expansions.lookup c.toNat with
  | some form => form.map Char.ofNat
  | none => [Char.ofNat (shiftBy runs c.toNat)]

/-- The capital form of a character. -/
def upperChar (c : Char) : List Char :=
  if c.toNat < 128 then [c.toUpper] else mapCase upperExpansions upperRuns c

/-- The small form of a character that stands alone. -/
def lowerChar (c : Char) : List Char :=
  if c.toNat < 128 then [c.toLower] else mapCase lowerExpansions lowerRuns c

def isCased (c : Char) : Bool :=
  casedRanges.contains c.toNat

def isCaseIgnorable (c : Char) : Bool :=
  caseIgnorableRanges.contains c.toNat

/-- Whether the first character that is not passed over is a cased letter. -/
def startsCased (s : List Char) : Bool :=
  match s.find? (!isCaseIgnorable ·) with
  | some c => isCased c
  | none => false

/-- The small form of a text; `inWord` says whether it continues a word. A capital sigma is final
when a cased letter precedes it in its word and none follows. -/
def lowerFrom (inWord : Bool) : List Char → List Char
  | [] => []
  | c :: r =>
    let form := if c == 'Σ' then [if inWord && !startsCased r then 'ς' else 'σ'] else lowerChar c
    form ++ lowerFrom (if isCaseIgnorable c then inWord else isCased c) r

/-- The small form of a text. -/
def lower (s : List Char) : List Char :=
  lowerFrom false s

theorem lowerChar_ne_nil (c : Char) : lowerChar c ≠ [] := by
  unfold lowerChar mapCase
  split
  · exact List.cons_ne_nil _ _
  · split
    · rename_i form hform
      have spelled : ∀ entry ∈ lowerExpansions, entry.2 ≠ [] := by decide
      obtain ⟨before, after, hentries, -⟩ := List.lookup_eq_some_iff.1 hform
      have hne : form ≠ [] := spelled (c.toNat, form) (by simp [hentries])
      exact fun h => hne (List.map_eq_nil_iff.1 h)
    · exact List.cons_ne_nil _ _

/-- The characters of an ASCII text turn small one by one. -/
theorem lower_eq_map {s : List Char} (ascii : ∀ c ∈ s, c.toNat < 128) : lower s = s.map Char.toLower := by
  have running (inWord : Bool) : lowerFrom inWord s = s.map Char.toLower := by
    induction s generalizing inWord with
    | nil => rfl
    | cons c s ih =>
      obtain ⟨hc, hs⟩ := List.forall_mem_cons.1 ascii
      have hsigma : (c == 'Σ') = false := by
        rw [beq_eq_false_iff_ne]
        rintro rfl
        exact absurd hc (by decide)
      simp only [lowerFrom, hsigma, lowerChar, hc, if_true, ih hs]
      rfl
  exact running false

end ComponentTags.Text
