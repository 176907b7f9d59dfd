import ComponentTags.Proofs.AttributeList

/-!
# The places of the shorthand

Where the shorthand is written out, runs between two equal quotes are passed over wherever they stand, and the
marker is written in front of the colons that stand apart outside of these runs. So what is done to a text is
said by a set of places, and the text that comes out is the text with a mark at each of them.
-/

namespace ComponentTags.Attribute

variable {s u v rest name : List Char} {c : Char} {apart : Bool} {m : Nat → Bool} {i k : Nat}

/-! ## Places -/

/-- A name behind the text stands apart: white space is in front of it, or nothing. Whether the start of the
text counts is said by `apart`. -/
def isApart (apart : Bool) : List Char → Bool
  | [] => apart
  | c :: s => isApart (Text.isBlank c) s

theorem isApart_append (u v : List Char) : isApart apart (u ++ v) = isApart (isApart apart u) v := by
  induction u generalizing apart with
  | nil => rfl
  | cons c u ih => exact ih

theorem isApart_eq_false (h : ∀ c ∈ u, Text.isBlank c = false) (hne : u ≠ []) : isApart apart u = false := by
  induction u generalizing apart with
  | nil => exact absurd rfl hne
  | cons c u ih =>
    rw [isApart, h c (by simp)]
    cases u with
    | nil => rfl
    | cons d u => exact ih (fun e he => h e (by simp [he])) (by simp)

/-- Whether a place is inside a run between two equal quotes. The runs are paired from the left; the place in
front of a run is not inside it. -/
def insideRun (s : List Char) (k : Nat) : Bool :=
  match _run : quotedRun? s with
  | some (run, rest) => if k < run.length then 0 < k else insideRun rest (k - run.length)
  | none =>
    match s, k with
    | [], _ => false
    | _ :: _, 0 => false
    | _ :: s, k + 1 => insideRun s k
termination_by s.length
decreasing_by
  · have h := quotedRun?_append _run
    rw [h.1, List.length_append]
    omega
  · simp

theorem insideRun_of_quotedRun? {run : List Char} (h : quotedRun? s = some (run, rest)) (k : Nat) :
    insideRun s k = if k < run.length then decide (0 < k) else insideRun rest (k - run.length) := by
  rw [insideRun]
  split
  · rename_i found
    rw [h] at found
    cases found
    rfl
  · rename_i found
    rw [h] at found
    cases found

theorem insideRun_cons_succ (h : quotedRun? (c :: s) = none) (k : Nat) :
    insideRun (c :: s) (k + 1) = insideRun s k := by
  rw [insideRun]
  split
  · rename_i found
    rw [h] at found
    cases found
  · rfl

theorem insideRun_zero (s : List Char) : insideRun s 0 = false := by
  cases hrun : quotedRun? s with
  | none =>
    rw [insideRun]
    split
    · rename_i found
      rw [hrun] at found
      cases found
    · cases s <;> rfl
  | some found =>
    obtain ⟨run, rest⟩ := found
    have hlength := (quotedRun?_append hrun).2
    rw [insideRun_of_quotedRun? hrun, if_pos (by omega)]
    rfl

theorem insideRun_nil (k : Nat) : insideRun [] k = false := by
  rw [insideRun]
  rfl

/-- The runs behind a place outside of all runs are those of the text that starts there. -/
theorem insideRun_add {j : Nat} (h : insideRun s k = false) :
    insideRun s (k + j) = insideRun (s.drop k) j := by
  fun_induction insideRun s k with
  | case1 s k run rest hrun hlt =>
    cases k with
    | zero => rw [Nat.zero_add, List.drop_zero]
    | succ k => cases h
  | case2 s k run rest hrun hge ih =>
    have hdrop : s.drop k = rest.drop (k - run.length) := by
      rw [(quotedRun?_append hrun).1, List.drop_append, List.drop_of_length_le (by omega), List.nil_append]
    rw [insideRun_of_quotedRun? hrun, if_neg (by omega), hdrop, ← ih h, Nat.sub_add_comm (by omega)]
  | case3 k hrun => rw [List.drop_nil, insideRun_nil, insideRun_nil]
  | case4 => rw [Nat.zero_add, List.drop_zero]
  | case5 c s k hrun ih => rw [Nat.succ_add, insideRun_cons_succ hrun, List.drop_succ_cons, ih h]

theorem insideRun_append (h : ∀ c ∈ u, c ≠ '"' ∧ c ≠ '\'') (s : List Char) (k : Nat) :
    insideRun (u ++ s) (u.length + k) = insideRun s k := by
  induction u with
  | nil => rw [List.nil_append, List.length_nil, Nat.zero_add]
  | cons c u ih =>
    obtain ⟨hdouble, hsingle⟩ := h c (by simp)
    rw [List.cons_append, List.length_cons, Nat.add_right_comm,
      insideRun_cons_succ (quotedRun?_cons_of_ne hdouble hsingle), ih fun d hd => h d (by simp [hd])]

/-- The places at which the shorthand is written out. -/
def marksFrom (apart : Bool) (s : List Char) (k : Nat) : Bool :=
  isApart apart (s.take k) && (shorthand? (s.drop k)).isSome && !insideRun s k

/-- A text with the marker, less its colon, written in front of the marked places. The text starts at place
`i`. -/
def markFrom (m : Nat → Bool) (i : Nat) : List Char → List Char
  | [] => []
  | c :: s => (if m i then "bind".toList else []) ++ c :: markFrom m (i + 1) s

theorem markFrom_append (u v : List Char) :
    markFrom m i (u ++ v) = markFrom m i u ++ markFrom m (i + u.length) v := by
  induction u generalizing i with
  | nil => rfl
  | cons c u ih =>
    have hi : i + 1 + u.length = i + (c :: u).length := by
      rw [List.length_cons]
      omega
    rw [List.cons_append, markFrom, markFrom, ih, hi, List.append_assoc, List.cons_append]

/-- A text without marked places is kept. -/
theorem markFrom_eq_self (h : ∀ k < s.length, m (i + k) = false) : markFrom m i s = s := by
  induction s generalizing i with
  | nil => rfl
  | cons c s ih =>
    have hhere : m i = false := h 0 (by simp)
    have hrest : markFrom m (i + 1) s = s := ih fun k hk => by
      have := h (k + 1) (by simpa using hk)
      rwa [Nat.add_right_comm, Nat.add_assoc]
    simp [markFrom, hhere, hrest]

/-! ## The marks of the first scanner -/

theorem marksFrom_zero : marksFrom apart s 0 = (apart && (shorthand? s).isSome) := by
  simp [marksFrom, insideRun_zero, isApart]

theorem marksFrom_cons_succ (h : quotedRun? (c :: s) = none) (k : Nat) :
    marksFrom apart (c :: s) (k + 1) = marksFrom (Text.isBlank c) s k := by
  simp [marksFrom, isApart, insideRun_cons_succ h]

/-- Nothing in a run is marked, and nothing right behind it. -/
theorem marksFrom_of_quotedRun? (apart : Bool) {run : List Char} (h : quotedRun? s = some (run, rest)) :
    (∀ k < run.length, marksFrom apart s k = false) ∧
      ∀ k, marksFrom apart s (run.length + k) = marksFrom false rest k := by
  obtain ⟨quote, inner, hquote, -, hs, hrun⟩ := quotedRun?_eq_some h
  have happend : s = run ++ rest := (quotedRun?_append h).1
  have hcolon : quote ≠ ':' := by rcases hquote with rfl | rfl <;> decide
  have hblank : Text.isBlank quote = false := by rcases hquote with rfl | rfl <;> decide
  refine ⟨fun k hk => ?_, fun k => ?_⟩
  · cases k with
    | zero => rw [marksFrom_zero, hs, List.cons_append, shorthand?_cons_of_ne hcolon, Option.isSome_none,
        Bool.and_false]
    | succ k => simp [marksFrom, insideRun_of_quotedRun? h, hk]
  · have hinside : insideRun s (run.length + k) = insideRun rest k := by
      rw [insideRun_of_quotedRun? h, if_neg (by omega), Nat.add_sub_cancel_left]
    have hapart : isApart apart (s.take (run.length + k)) = isApart false (rest.take k) := by
      rw [happend, List.take_length_add_append, isApart_append, hrun, isApart_append]
      simp [isApart, hblank]
    have hdrop : s.drop (run.length + k) = rest.drop k := by
      rw [happend, List.drop_length_add_append]
    rw [marksFrom, marksFrom, hinside, hapart, hdrop]

theorem marksFrom_eq_of_shorthand?_eq_none (h : shorthand? s = none) :
    marksFrom true s = marksFrom false s := by
  funext k
  cases k with
  | zero => simp [marksFrom_zero, h]
  | succ k =>
    cases s with
    | nil => simp [marksFrom, shorthand?]
    | cons c s => rfl

theorem shorthand?_eq_some (h : shorthand? s = some (name, rest)) :
    name ≠ [] ∧ ∀ c ∈ name, isPlainNameChar c = true := by
  unfold shorthand? at h
  split at h
  · split at h
    · cases h
    · rename_i hne
      cases h
      exact ⟨hne, List.all_eq_true.1 List.all_takeWhile⟩
  · cases h

theorem exists_of_shorthand?_isSome (h : (shorthand? s).isSome) :
    ∃ c r, s = ':' :: c :: r ∧ isPlainNameChar c = true := by
  obtain ⟨⟨name, rest⟩, h⟩ := Option.isSome_iff_exists.1 h
  obtain ⟨hne, hplain⟩ := shorthand?_eq_some h
  cases name with
  | nil => exact absurd rfl hne
  | cons c name => exact ⟨c, name ++ rest, shorthand?_append h, hplain c (by simp)⟩

theorem shorthand?_isSome (hc : isPlainNameChar c = true) : (shorthand? (':' :: c :: s)).isSome := by
  simp [shorthand?, List.takeWhile_cons_of_pos hc]

theorem quotedRun?_cons_of_isNameChar (h : isNameChar c = true) : quotedRun? (c :: s) = none :=
  quotedRun?_cons_of_ne (isCopied_of_isNameChar h).1 (isCopied_of_isNameChar h).2.1

/-- Nothing in a name is marked but a colon that stands apart, and nothing right behind it. -/
theorem marksFrom_append_of_plain (h : ∀ c ∈ u, isPlainNameChar c = true) (rest : List Char) :
    (∀ k < u.length, marksFrom false (u ++ rest) k = false) ∧
      ∀ k, marksFrom false (u ++ rest) (u.length + k) = marksFrom false rest k := by
  induction u with
  | nil => simp
  | cons c u ih =>
    have hc := isNameChar_of_isPlainNameChar (h c (by simp))
    have hrun : quotedRun? (c :: (u ++ rest)) = none := quotedRun?_cons_of_isNameChar hc
    obtain ⟨hinside, hbehind⟩ := ih fun d hd => h d (by simp [hd])
    refine ⟨fun k hk => ?_, fun k => ?_⟩
    · cases k with
      | zero => rw [marksFrom_zero, Bool.false_and]
      | succ k =>
        rw [List.cons_append, marksFrom_cons_succ hrun, isBlank_of_isNameChar hc]
        exact hinside k (by simpa using hk)
    · rw [List.cons_append, List.length_cons, Nat.add_right_comm, marksFrom_cons_succ hrun,
        isBlank_of_isNameChar hc, hbehind]

/-- A marked name, its colon written out. -/
theorem markFrom_of_shorthand? (h : shorthand? s = some (name, rest))
    (hm : ∀ k, m (i + k) = marksFrom true s k) :
    markFrom m i s = bindMarker ++ name ++ markFrom m (i + 1 + name.length) rest ∧
      ∀ k, m (i + 1 + name.length + k) = marksFrom false rest k := by
  obtain ⟨-, hname⟩ := shorthand?_eq_some h
  obtain ⟨hinside, hbehind⟩ := marksFrom_append_of_plain hname rest
  have hs : s = ':' :: (name ++ rest) := shorthand?_append h
  have hhere : m i = true := by
    have := hm 0
    rwa [marksFrom_zero, h] at this
  have hrun : quotedRun? (':' :: (name ++ rest)) = none :=
    quotedRun?_cons_of_ne (by decide) (by decide)
  have hnext (k : Nat) : m (i + 1 + k) = marksFrom false (name ++ rest) k := by
    rw [Nat.add_assoc, Nat.add_comm 1 k, hm, hs, marksFrom_cons_succ hrun]
    rfl
  refine ⟨?_, fun k => ?_⟩
  · rw [hs, markFrom, if_pos hhere, markFrom_append,
      markFrom_eq_self fun k hk => (hnext k).trans (hinside k hk)]
    rfl
  · rw [Nat.add_assoc _ name.length, hnext, hbehind]

/-- What stands inside a run or not apart is kept, and every other shorthand is written out. -/
theorem expandRest_eq_markFrom (s : List Char) (hm : ∀ k, m (i + k) = marksFrom false s k) :
    expandRest s = markFrom m i s := by
  -- the marks behind one character
  have tail {i : Nat} {c : Char} {s : List Char} (hrun : quotedRun? (c :: s) = none)
      (hm : ∀ k, m (i + k) = marksFrom false (c :: s) k) :
      m i = false ∧ ∀ k, m (i + 1 + k) = marksFrom (Text.isBlank c) s k :=
    ⟨(hm 0).trans (by rw [marksFrom_zero, Bool.false_and]), fun k => by
      rw [Nat.add_assoc, Nat.add_comm 1 k, hm, marksFrom_cons_succ hrun]⟩
  fun_induction expandRest s generalizing i with
  | case1 s run rest hrun ih =>
    obtain ⟨hinside, hbehind⟩ := marksFrom_of_quotedRun? false hrun
    rw [(quotedRun?_append hrun).1, markFrom_append,
      markFrom_eq_self fun k hk => (hm k).trans (hinside k hk),
      ih fun k => by rw [Nat.add_assoc, hm, hbehind]]
  | case2 => rfl
  | case3 c s hrun hblank name rest hname ih =>
    obtain ⟨hhere, hnext⟩ := tail hrun hm
    rw [hblank] at hnext
    obtain ⟨hmark, hrest⟩ := markFrom_of_shorthand? hname hnext
    rw [markFrom, hhere, hmark, ih hrest]
    simp
  | case4 c s hrun hblank hname ih =>
    obtain ⟨hhere, hnext⟩ := tail hrun hm
    rw [hblank, marksFrom_eq_of_shorthand?_eq_none hname] at hnext
    rw [markFrom, hhere, ih hnext]
    rfl
  | case5 c s hrun hblank ih =>
    obtain ⟨hhere, hnext⟩ := tail hrun hm
    rw [Bool.not_eq_true] at hblank
    rw [hblank] at hnext
    rw [markFrom, hhere, ih hnext]
    rfl

/-- The places of a text at which the shorthand is written out: names with a colon in front that stand apart,
outside of all runs. -/
def marks (s : List Char) : Nat → Bool := marksFrom true s

theorem expandShorthand_eq_markFrom (s : List Char) : expandShorthand s = markFrom (marks s) 0 s := by
  have hm (k : Nat) : marks s (0 + k) = marksFrom true s k := by rw [Nat.zero_add, marks]
  rw [expandShorthand]
  split
  · rename_i name rest hname
    obtain ⟨hmark, hrest⟩ := markFrom_of_shorthand? hname hm
    rw [hmark, expandRest_eq_markFrom rest hrest]
  · rename_i hname
    rw [marksFrom_eq_of_shorthand?_eq_none hname] at hm
    exact expandRest_eq_markFrom s hm

/-- Nothing is marked in a run without white space but its first place, and nothing right behind it. -/
theorem marks_eq_false_of_not_blank (h : ∀ c ∈ v, Text.isBlank c = false) (hk : 0 < k) (hle : k ≤ v.length) :
    marks (u ++ (v ++ rest)) (u.length + k) = false := by
  have hne : v.take k ≠ [] := by
    intro hnil
    have hlength := congrArg List.length hnil
    rw [List.length_take, List.length_nil] at hlength
    omega
  have hapart : isApart true ((u ++ (v ++ rest)).take (u.length + k)) = false := by
    rw [List.take_length_add_append, List.take_append_of_le_length hle, isApart_append]
    exact isApart_eq_false (fun c hc => h c (List.mem_of_mem_take hc)) hne
  rw [marks, marksFrom, hapart, Bool.false_and, Bool.false_and]

end ComponentTags.Attribute
