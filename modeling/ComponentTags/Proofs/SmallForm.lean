import ComponentTags.Proofs.AttributeKey

/-!
# Small forms

A character is a capital, of whatever script, if the case tables give it a small form other than itself. No small
form is a capital again: where the forms of one run of the tables lie among the capitals of another, they fall
between them. So a text that was made small stays as it is. Nor do small forms bring in separators or white space.
-/

namespace ComponentTags.Text

variable {s : List Char} {c d : Char}

/-! ## Capitals -/

/-- The runs of the characters for which the tables list a small form. -/
def listedRuns : List CaseRun :=
  lowerExpansions.map (fun entry => ⟨entry.1, entry.1, 1, 0⟩) ++ lowerRuns

/-- The runs of all characters that have a small form other than themselves. -/
def capitalRuns : List CaseRun :=
  ⟨65, 90, 1, 32⟩ :: listedRuns

/-- Whether a character is a capital of some script. -/
def isCapital (c : Char) : Bool :=
  capitalRuns.any (·.covers c.toNat)

theorem CaseRun.covers_iff {run : CaseRun} {n : Nat} :
    run.covers n = true ↔ run.first ≤ n ∧ n ≤ run.last ∧ run.step ∣ n - run.first := by
  simp only [covers, Bool.and_eq_true, decide_eq_true_eq, beq_iff_eq, Nat.dvd_iff_mod_eq_zero, and_assoc]

theorem CaseRun.covers_single {n m : Nat} {shift : Int} : CaseRun.covers ⟨n, n, 1, shift⟩ m = (m == n) := by
  rw [Bool.eq_iff_iff, covers_iff, beq_iff_eq]
  constructor
  · rintro ⟨hfirst, hlast, -⟩
    exact Nat.le_antisymm hlast hfirst
  · rintro rfl
    exact ⟨Nat.le_refl m, Nat.le_refl m, Nat.one_dvd _⟩

/-- In ASCII the capitals are the capital letters. -/
theorem isCapital_of_ascii (hc : c.toNat < 128) : isCapital c = c.isUpper := by
  have hlisted : listedRuns.any (·.covers c.toNat) = false := by
    have beyond : ∀ run ∈ listedRuns, 128 ≤ run.first := by decide +kernel
    rw [List.any_eq_false]
    intro run hrun hcovers
    have hfirst := (CaseRun.covers_iff.1 hcovers).1
    have hstart := beyond run hrun
    omega
  have hletters := of_ascii (q := fun c => CaseRun.covers ⟨65, 90, 1, 32⟩ c.toNat == c.isUpper)
    (by decide +kernel) hc
  rw [isCapital, capitalRuns, List.any_cons, hlisted, Bool.or_false]
  exact beq_iff_eq.1 hletters

theorem isUpper_of_not_isCapital (h : isCapital c = false) : c.isUpper = false := by
  rw [← Bool.not_eq_true]
  intro hupper
  have halnum : c.isAlphanum = true := by
    unfold Char.isAlphanum Char.isAlpha
    simp [hupper]
  rw [isCapital_of_ascii (toNat_lt_of_isTagChar (by simp [isTagChar, halnum])), hupper] at h
  cases h

/-- Beyond ASCII the capitals are the characters that the tables list. -/
theorem isCapital_eq_false_iff (hc : ¬ c.toNat < 128) :
    isCapital c = false ↔
      lowerExpansions.lookup c.toNat = none ∧ lowerRuns.find? (·.covers c.toNat) = none := by
  have hletters : CaseRun.covers ⟨65, 90, 1, 32⟩ c.toNat = false := by
    rw [← Bool.not_eq_true, CaseRun.covers_iff]
    rintro ⟨-, hlast, -⟩
    dsimp only at hlast
    omega
  rw [isCapital, capitalRuns, List.any_cons, hletters, Bool.false_or, listedRuns, List.any_append,
    Bool.or_eq_false_iff, List.any_map, List.any_eq_false, List.any_eq_false, List.lookup_eq_none_iff,
    List.find?_eq_none]
  simp only [Function.comp_apply, CaseRun.covers_single, beq_iff_eq, bne_iff_ne, ne_eq]

/-- A character that is no capital is its own small form. -/
theorem lowerChar_of_not_isCapital (h : isCapital c = false) : lowerChar c = [c] := by
  unfold lowerChar
  split
  · rename_i hascii
    rw [isCapital_of_ascii hascii] at h
    have all := of_ascii (q := fun c => c.isUpper || c.toLower == c) (by decide +kernel) hascii
    simp only [h, Bool.false_or, beq_iff_eq] at all
    rw [all]
  · rename_i hc
    obtain ⟨hlookup, hfind⟩ := (isCapital_eq_false_iff hc).1 h
    rw [mapCase, hlookup, shiftBy, hfind, Char.ofNat_toNat]

/-! ## Forms of one run among the capitals of another -/

namespace CaseRun

variable {run a b : CaseRun} {n m : Nat}

/-- The run of the forms that a run gives. -/
def forms (run : CaseRun) : CaseRun :=
  ⟨(run.first + run.shift).toNat, (run.last + run.shift).toNat, run.step, 0⟩

theorem covers_forms (hstart : 0 ≤ run.first + run.shift) (h : run.covers n = true) (hm : (m : Int) = n + run.shift) :
    run.forms.covers m = true := by
  obtain ⟨hfirst, hlast, hstep⟩ := covers_iff.1 h
  have hoffset : m - (run.first + run.shift).toNat = n - run.first := by omega
  rw [covers_iff, forms]
  dsimp only
  exact ⟨by omega, by omega, hoffset ▸ hstep⟩

/-- Whether two runs overlap without passing each other by: two runs of one step do so if they stand at different
remainders of it. The comparisons are those that compute fast, as all pairs of runs are compared. -/
def meets (a b : CaseRun) : Bool :=
  Nat.ble b.first a.last && Nat.ble a.first b.last &&
    (a.first % b.step == b.first % b.step || !(a.step == b.step || a.first == a.last))

theorem mod_step_of_covers (h : run.covers n = true) : n % run.step = run.first % run.step := by
  obtain ⟨hfirst, -, k, hk⟩ := covers_iff.1 h
  have hn : n = run.first + run.step * k := by omega
  rw [hn, Nat.add_mul_mod_self_left]

/-- Runs that map one and the same character meet. -/
theorem meets_of_covers (ha : a.covers n = true) (hb : b.covers n = true) : a.meets b = true := by
  obtain ⟨hfirst, hlast, -⟩ := covers_iff.1 ha
  obtain ⟨hfirst', hlast', -⟩ := covers_iff.1 hb
  have hremainder := mod_step_of_covers hb
  simp only [meets, Bool.and_eq_true, Nat.ble_eq, Bool.or_eq_true, beq_iff_eq, Bool.not_eq_true',
    Bool.or_eq_false_iff, beq_eq_false_iff_ne]
  refine ⟨⟨by omega, by omega⟩, ?_⟩
  by_cases hsame : a.step = b.step
  · left
    rw [← hremainder, ← hsame, mod_step_of_covers ha]
  · by_cases hsingle : a.first = a.last
    · left
      have hn : n = a.first := by omega
      rw [← hremainder, hn]
    · exact .inr ⟨hsame, hsingle⟩

end CaseRun

/-- The forms that the runs give keep clear of all capitals. -/
theorem lowerRuns_clear :
    ∀ run ∈ lowerRuns, 0 ≤ run.first + run.shift ∧ capitalRuns.any run.forms.meets = false := by
  decide +kernel

theorem isCapital_ofNat_add_shift {run : CaseRun} (hrun : run ∈ lowerRuns) {n : Nat} (hn : run.covers n = true) :
    isCapital (Char.ofNat (n + run.shift).toNat) = false := by
  obtain ⟨hstart, clear⟩ := lowerRuns_clear run hrun
  have hfirst := (CaseRun.covers_iff.1 hn).1
  obtain ⟨m, hm⟩ := Int.eq_ofNat_of_zero_le (a := n + run.shift) (by omega)
  have hforms := CaseRun.covers_forms hstart hn hm.symm
  rw [hm, Int.toNat_natCast, isCapital]
  rcases toNat_ofNat m with hchar | hnull
  · rw [hchar, List.any_eq_false]
    intro other hother hcovers
    exact List.any_eq_false.1 clear other hother (CaseRun.meets_of_covers hforms hcovers)
  · rw [hnull]
    decide +kernel

theorem isCapital_of_mem_mapCase (hc : ¬ c.toNat < 128) (h : d ∈ mapCase lowerExpansions lowerRuns c) :
    isCapital d = false := by
  unfold mapCase at h
  split at h
  · rename_i form hform
    have long : ∀ entry ∈ lowerExpansions, ∀ n ∈ entry.2, isCapital (Char.ofNat n) = false := by decide +kernel
    obtain ⟨n, hn, rfl⟩ := List.mem_map.1 h
    obtain ⟨before, after, heq, -⟩ := List.lookup_eq_some_iff.1 hform
    exact long (c.toNat, form) (by simp [heq]) n hn
  · rename_i hlookup
    rw [List.mem_singleton.1 h]
    unfold shiftBy
    split
    · rename_i run hfind
      have hcovers := List.find?_some hfind
      exact isCapital_ofNat_add_shift (List.mem_of_find?_eq_some hfind) hcovers
    · rename_i hfind
      rw [Char.ofNat_toNat]
      exact (isCapital_eq_false_iff hc).2 ⟨hlookup, hfind⟩

/-- A small form is no capital. -/
theorem isCapital_of_mem_lowerChar (h : d ∈ lowerChar c) : isCapital d = false := by
  unfold lowerChar at h
  split at h
  · rename_i hascii
    have all := of_ascii (q := fun c => decide (c.toLower.toNat < 128) && !c.toLower.isUpper)
      (by decide +kernel) hascii
    rw [Bool.and_eq_true, decide_eq_true_eq, Bool.not_eq_true'] at all
    rw [List.mem_singleton.1 h, isCapital_of_ascii all.1, all.2]
  · rename_i hc
    exact isCapital_of_mem_mapCase hc h

/-! ## Separators -/

/-- The code points of separators and white space. -/
def wordGaps : Ranges :=
  (45, 45) :: (95, 95) :: blankRanges

theorem isWordPart_eq (c : Char) : isWordPart c = !wordGaps.contains c.toNat := by
  have hcode (e : Char) : (c == e) = (decide (e.toNat ≤ c.toNat) && decide (c.toNat ≤ e.toNat)) := by
    rw [Bool.eq_iff_iff, beq_iff_eq, Bool.and_eq_true, decide_eq_true_eq, decide_eq_true_eq, ← Char.toNat_inj]
    omega
  rw [isWordPart, isSeparator, hcode, hcode, Bool.or_assoc]
  rfl

theorem isWordPart_of_mem_lowerChar (hc : isWordPart c = true) (h : d ∈ lowerChar c) : isWordPart d = true := by
  unfold lowerChar at h
  split at h
  · rename_i hascii
    have all := of_ascii (q := fun c => !isWordPart c || isWordPart c.toLower) (by decide +kernel) hascii
    rw [List.mem_singleton.1 h]
    simpa [hc] using all
  · rw [isWordPart_eq, Bool.not_eq_true'] at hc ⊢
    exact contains_of_mem_mapCase (by decide +kernel) hc h

/-! ## Small texts -/

/-- What a character gives in a small text, wherever it stands. -/
structure IsSmallForm (form : List Char) (c : Char) : Prop where
  ne_nil : form ≠ []
  not_isCapital : ∀ d ∈ form, isCapital d = false
  isWordPart : isWordPart c = true → ∀ d ∈ form, isWordPart d = true
  eq_of_not_isCapital : isCapital c = false → form = [c]

theorem isSmallForm_lowerChar (c : Char) : IsSmallForm (lowerChar c) c where
  ne_nil := lowerChar_ne_nil c
  not_isCapital := fun _ => isCapital_of_mem_lowerChar
  isWordPart := fun hc _ => isWordPart_of_mem_lowerChar hc
  eq_of_not_isCapital := lowerChar_of_not_isCapital

theorem isSmallForm_finalSigma : IsSmallForm ['ς'] 'Σ' where
  ne_nil := List.cons_ne_nil _ _
  not_isCapital := List.forall_mem_singleton.2 (by decide +kernel)
  isWordPart := fun _ => List.forall_mem_singleton.2 (by decide +kernel)
  eq_of_not_isCapital := fun h => absurd h (by decide +kernel)

theorem exists_lowerFrom_cons (inWord : Bool) (c : Char) (s : List Char) :
    ∃ form, IsSmallForm form c ∧
      lowerFrom inWord (c :: s) = form ++ lowerFrom (if isCaseIgnorable c then inWord else isCased c) s := by
  refine ⟨_, ?_, rfl⟩
  split
  · rename_i hsigma
    rw [beq_iff_eq] at hsigma
    have hsmall : lowerChar 'Σ' = ['σ'] := by decide +kernel
    rw [hsigma]
    split
    · exact isSmallForm_finalSigma
    · rw [← hsmall]
      exact isSmallForm_lowerChar 'Σ'
  · exact isSmallForm_lowerChar c

theorem isCapital_of_mem_lowerFrom {inWord : Bool} (h : d ∈ lowerFrom inWord s) : isCapital d = false := by
  induction s generalizing inWord with
  | nil => cases h
  | cons c s ih =>
    obtain ⟨form, hform, hlower⟩ := exists_lowerFrom_cons inWord c s
    rw [hlower] at h
    rcases List.mem_append.1 h with h | h
    · exact hform.not_isCapital d h
    · exact ih h

/-- A text without capitals is kept. -/
theorem lower_eq_self (h : ∀ c ∈ s, isCapital c = false) : lower s = s := by
  have running (inWord : Bool) : lowerFrom inWord s = s := by
    induction s generalizing inWord with
    | nil => rfl
    | cons c s ih =>
      obtain ⟨hc, hs⟩ := List.forall_mem_cons.1 h
      obtain ⟨form, hform, hlower⟩ := exists_lowerFrom_cons inWord c s
      rw [hlower, hform.eq_of_not_isCapital hc, ih hs, List.singleton_append]
  exact running false

end ComponentTags.Text
