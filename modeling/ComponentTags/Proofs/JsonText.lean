import ComponentTags.Json.Reader
import ComponentTags.Json.Writer
import Mathlib.Algebra.GroupWithZero.Nat

/-!
# Texts in JSON

A text that is written as a JSON string is read as it was: every escape stands for the character that it was
written for, and a character beyond the first plane comes back from its pair of surrogates.
-/

namespace ComponentTags

namespace Text

theorem hexValue?_digitChar : ∀ d < 16, hexValue? (Nat.digitChar d) = some d := by
  decide

theorem takeHex?_go_hexDigits (width left acc n : Nat) (rest : List Char) :
    takeHex?.go (width + left) acc (hexDigits width n ++ rest) =
      takeHex?.go left (acc * 16 ^ width + n % 16 ^ width) rest := by
  induction width generalizing left n rest with
  | zero => simp [hexDigits, Nat.mod_one]
  | succ width ih =>
    have hdigit := hexValue?_digitChar (n % 16) (Nat.mod_lt _ (by decide))
    have hvalue : (acc * 16 ^ width + n / 16 % 16 ^ width) * 16 + n % 16 =
        acc * 16 ^ (width + 1) + n % 16 ^ (width + 1) := by
      rw [Nat.pow_succ, Nat.mul_comm (16 ^ width) 16, Nat.mod_mul, Nat.mul_left_comm acc]
      omega
    have hwidth : width + 1 + left = width + (left + 1) := by omega
    rw [hexDigits, List.append_assoc, hwidth, ih]
    simp only [List.cons_append, List.nil_append, takeHex?.go, hdigit, hvalue]

/-- Digits of a number that has no more are read as it. -/
theorem takeHex?_hexDigits {width n : Nat} (h : n < 16 ^ width) (rest : List Char) :
    takeHex? width (hexDigits width n ++ rest) = some (n, rest) := by
  have hgo := takeHex?_go_hexDigits width 0 0 n rest
  rw [Nat.zero_mul, Nat.zero_add, Nat.mod_eq_of_lt h] at hgo
  exact hgo

end Text

namespace Json

/-- No character is half of a surrogate pair. -/
theorem toNat_not_surrogate (c : Char) : c.toNat < 0xD800 ∨ 0xDFFF < c.toNat ∧ c.toNat < 0x110000 :=
  c.valid

theorem ofCodePoint_toNat (c : Char) : Text.ofCodePoint c.toNat = c := by
  have hvalid : c.toNat.isValidChar := c.valid
  rw [Text.ofCodePoint, if_pos hvalid, Char.ofNat_toNat]

/-- An escape of one code unit is read as the character. -/
theorem unitEscape?_of_unit {c : Char} (h : c.toNat < 0x10000) (rest : List Char) :
    unitEscape? (Text.hexDigits 4 c.toNat ++ rest) = some (c, rest) := by
  have hhigh : Text.isHighSurrogate c.toNat = false := by
    have hc := toNat_not_surrogate c
    simp only [Text.isHighSurrogate, Bool.and_eq_false_iff, decide_eq_false_iff_not]
    omega
  rw [unitEscape?, Text.takeHex?_hexDigits h]
  simp only [hhigh, Bool.false_eq_true, if_false, ofCodePoint_toNat]
  split <;> rfl

/-- Escapes of two code units are read as the character of the pair. -/
theorem unitEscape?_of_pair {high low : Nat} (hhigh : Text.isHighSurrogate high = true)
    (hlow : Text.isLowSurrogate low = true) (rest : List Char) :
    unitEscape? (Text.hexDigits 4 high ++ (unitEscape low ++ rest)) =
      some (Text.ofSurrogates high low, rest) := by
  have hhighBound : high < 16 ^ 4 := by
    simp only [Text.isHighSurrogate, Bool.and_eq_true, decide_eq_true_eq] at hhigh
    omega
  have hlowBound : low < 16 ^ 4 := by
    simp only [Text.isLowSurrogate, Bool.and_eq_true, decide_eq_true_eq] at hlow
    omega
  have hsecond : Text.lowSurrogate? (unitEscape low ++ rest) = some (low, rest) := by
    simp only [unitEscape, List.cons_append, Text.lowSurrogate?, Text.takeHex?_hexDigits hlowBound,
      Option.filter_some, hlow, if_true]
  rw [unitEscape?, Text.takeHex?_hexDigits hhighBound]
  simp only [hsecond, hhigh, if_true]

/-- The halves of a character beyond the first plane. -/
theorem surrogates_of_toNat {c : Char} (h : 0x10000 ≤ c.toNat) :
    Text.isHighSurrogate (0xD800 + (c.toNat - 0x10000) / 0x400) = true ∧
      Text.isLowSurrogate (0xDC00 + (c.toNat - 0x10000) % 0x400) = true ∧
      Text.ofSurrogates (0xD800 + (c.toNat - 0x10000) / 0x400)
        (0xDC00 + (c.toNat - 0x10000) % 0x400) = c := by
  have hc := toNat_not_surrogate c
  refine ⟨?_, ?_, ?_⟩
  · simp only [Text.isHighSurrogate, Bool.and_eq_true, decide_eq_true_eq]
    omega
  · simp only [Text.isLowSurrogate, Bool.and_eq_true, decide_eq_true_eq]
    omega
  · have hnat : 0x10000 + (0xD800 + (c.toNat - 0x10000) / 0x400 - 0xD800) * 0x400 +
        (0xDC00 + (c.toNat - 0x10000) % 0x400 - 0xDC00) = c.toNat := by
      omega
    rw [Text.ofSurrogates, hnat, Char.ofNat_toNat]

theorem readString_of_letter {l c : Char} (hl : letterEscape? l = some c) (fuel : Nat) (rest : List Char) :
    readString (fuel + 1) ('\\' :: l :: rest) =
      (readString fuel rest).map fun (text, behind) => (c :: text, behind) := by
  have hu : l ≠ 'u' := by
    rintro rfl
    cases hl
  rw [readString]
  · simp [hl]
  · exact hu

theorem readString_of_unit {s rest : List Char} {c : Char} (hs : unitEscape? s = some (c, rest))
    (fuel : Nat) :
    readString (fuel + 1) ('\\' :: 'u' :: s) =
      (readString fuel rest).map fun (text, behind) => (c :: text, behind) := by
  rw [readString]
  simp [hs]

theorem readString_of_plain {c : Char} (hquote : c ≠ '"') (hslash : c ≠ '\\') (hc : 32 ≤ c.toNat)
    (fuel : Nat) (rest : List Char) : readString (fuel + 1) (c :: rest) =
      (readString fuel rest).map fun (text, behind) => (c :: text, behind) := by
  have hcontrol : ¬ c.toNat < 32 := by omega
  simp [readString, hquote, hslash, hcontrol]

/-- What is written for a character is read as it. -/
theorem readString_escapedChar (c : Char) (fuel : Nat) (rest : List Char) :
    readString (fuel + 1) (escapedChar c ++ rest) =
      (readString fuel rest).map fun (text, behind) => (c :: text, behind) := by
  have ofNat {n : Nat} (h : (c.toNat == n) = true) : Char.ofNat n = c := by
    rw [← beq_iff_eq.1 h, Char.ofNat_toNat]
  unfold escapedChar
  split
  · rename_i hquoted
    rw [Bool.or_eq_true, beq_iff_eq, beq_iff_eq] at hquoted
    rcases hquoted with rfl | rfl <;> exact readString_of_letter rfl fuel rest
  rename_i hquoted
  split
  · rename_i hc
    rw [beq_iff_eq.1 hc]
    exact readString_of_letter rfl fuel rest
  split
  · rename_i hc
    rw [beq_iff_eq.1 hc]
    exact readString_of_letter rfl fuel rest
  split
  · rename_i hc
    rw [beq_iff_eq.1 hc]
    exact readString_of_letter rfl fuel rest
  split
  · rename_i hc
    rw [← ofNat hc]
    exact readString_of_letter rfl fuel rest
  split
  · rename_i hc
    rw [← ofNat hc]
    exact readString_of_letter rfl fuel rest
  split
  · rename_i hc
    simp only [Bool.or_eq_true, beq_iff_eq, not_or] at hquoted
    simp only [Bool.and_eq_true, decide_eq_true_eq] at hc
    exact readString_of_plain hquoted.1 hquoted.2 hc.1 fuel rest
  split
  · rename_i hc
    exact readString_of_unit (unitEscape?_of_unit hc rest) fuel
  · rename_i hc
    obtain ⟨hhigh, hlow, hpair⟩ := surrogates_of_toNat (Nat.le_of_not_lt hc)
    have hunits := unitEscape?_of_pair hhigh hlow rest
    rw [hpair] at hunits
    rw [List.append_assoc]
    exact readString_of_unit hunits fuel

theorem readString_escaped (s rest : List Char) (fuel : Nat) :
    readString (s.length + fuel + 1) (s.flatMap escapedChar ++ '"' :: rest) = some (s, rest) := by
  induction s with
  | nil => simp [readString]
  | cons c s ih =>
    have hfuel : (c :: s).length + fuel + 1 = s.length + fuel + 1 + 1 := by
      rw [List.length_cons]
      omega
    rw [hfuel, List.flatMap_cons, List.append_assoc, readString_escapedChar, ih]
    rfl

theorem escapedChar_ne_nil (c : Char) : escapedChar c ≠ [] := by
  unfold escapedChar unitEscape
  repeat' split
  all_goals exact fun h => by cases h

/-- No escape is shorter than its character. -/
theorem length_le_length_escaped (s : List Char) : s.length ≤ (s.flatMap escapedChar).length := by
  induction s with
  | nil => simp
  | cons c s ih =>
    have hc := List.length_pos_iff.2 (escapedChar_ne_nil c)
    rw [List.flatMap_cons, List.length_append, List.length_cons]
    omega

/-- A text that is written as a JSON string is read as it was. -/
theorem readValue_string (text : String) (rest : List Char) (fuel depth : Nat) :
    readValue (fuel + 1) depth ((string text).toList ++ rest) = .ok (.text text, rest) := by
  have htext : (string text).toList ++ rest =
      '"' :: (text.toList.flatMap escapedChar ++ '"' :: rest) := by
    simp [string]
  have hlength := length_le_length_escaped text.toList
  have hspare : (text.toList.flatMap escapedChar ++ '"' :: rest).length = text.toList.length +
      ((text.toList.flatMap escapedChar).length - text.toList.length + (rest.length + 1)) := by
    rw [List.length_append, List.length_cons]
    omega
  rw [htext, readValue, hspare, readString_escaped]
  simp [orMalformed, Except.map]

end Json

end ComponentTags
