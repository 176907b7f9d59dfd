import ComponentTags.Attribute
import ComponentTags.Proofs.CamelCase

/-!
# Keys of attributes

A key is the camel case of a written name, so its characters are those of names other than separators, or their
capital and small forms. No form of any script is white space or an ASCII mark: nothing in a key opens or closes a
tag, a quote or a line.
-/

namespace ComponentTags

namespace Text

variable {ranges : Ranges} {expansions : List (Nat × List Nat)} {runs : List CaseRun} {c d : Char}

/-! ## Forms outside of ranges -/

/-- Whether the null character and all forms of a table of expansions and runs lie outside of ranges. -/
def Ranges.missedBy (ranges : Ranges) (expansions : List (Nat × List Nat)) (runs : List CaseRun) : Bool :=
  !ranges.contains 0 &&
    (expansions.all fun entry => entry.2.all fun n => !ranges.contains n) &&
    runs.all fun run => ranges.all fun r => run.last + run.shift < r.1 || r.2 < run.first + run.shift

/-- A number that names no character stands for the null character. -/
theorem toNat_ofNat (n : Nat) : (Char.ofNat n).toNat = n ∨ (Char.ofNat n).toNat = 0 := by
  by_cases hvalid : n.isValidChar
  · left
    rw [Char.ofNat, dif_pos hvalid]
    rfl
  · right
    rw [Char.ofNat, dif_neg hvalid]
    rfl

theorem contains_ofNat (null : ranges.contains 0 = false) {n : Nat} (h : ranges.contains n = false) :
    ranges.contains (Char.ofNat n).toNat = false := by
  rcases toNat_ofNat n with hn | hn
  · rwa [hn]
  · rwa [hn]

theorem contains_shiftBy (null : ranges.contains 0 = false)
    (apart : ∀ run ∈ runs, ∀ r ∈ ranges, run.last + run.shift < r.1 ∨ r.2 < run.first + run.shift)
    {n : Nat} (h : ranges.contains n = false) : ranges.contains (shiftBy runs n) = false := by
  unfold shiftBy
  split
  · rename_i run hrun
    have hmem := List.mem_of_find?_eq_some hrun
    have hcovers := List.find?_some hrun
    simp only [CaseRun.covers, Bool.and_eq_true, decide_eq_true_eq] at hcovers
    obtain ⟨⟨hfirst, hlast⟩, -⟩ := hcovers
    refine List.any_eq_false.2 fun r hr => ?_
    have hapart := apart run hmem r hr
    have hnull := List.any_eq_false.1 null r hr
    simp only [Bool.and_eq_true, decide_eq_true_eq] at hnull ⊢
    omega
  · exact h

/-- The forms of a character outside of ranges that a table misses lie outside as well. -/
theorem contains_of_mem_mapCase (missed : ranges.missedBy expansions runs = true)
    (hc : ranges.contains c.toNat = false) (h : d ∈ mapCase expansions runs c) :
    ranges.contains d.toNat = false := by
  simp only [Ranges.missedBy, Bool.and_eq_true, Bool.not_eq_true', List.all_eq_true, Bool.or_eq_true,
    decide_eq_true_eq] at missed
  obtain ⟨⟨null, long⟩, apart⟩ := missed
  unfold mapCase at h
  split at h
  · rename_i form hform
    obtain ⟨n, hn, rfl⟩ := List.mem_map.1 h
    obtain ⟨before, after, heq, -⟩ := List.lookup_eq_some_iff.1 hform
    exact contains_ofNat null (long (c.toNat, form) (by simp [heq]) n hn)
  · rw [List.mem_singleton.1 h]
    exact contains_ofNat null (contains_shiftBy null apart hc)

/-! ## Characters of keys -/

/-- The code points that no key holds: white space, and in ASCII all but letters, digits, the colon and the null
character. -/
def keyGaps : Ranges :=
  [(1, 47), (59, 64), (91, 96), (123, 127)] ++ blankRanges

/-- The characters of keys. -/
def isKeyChar (c : Char) : Bool :=
  !keyGaps.contains c.toNat

theorem isKeyChar_of_isNameChar (hname : Attribute.isNameChar c = true) (hpart : isWordPart c = true) :
    isKeyChar c = true := by
  by_cases hascii : c.toNat < 128
  · have all := of_ascii (q := fun c => !(Attribute.isNameChar c && isWordPart c) || isKeyChar c)
      (by decide +kernel) hascii
    simpa [hname, hpart] using all
  · have hblank : blankRanges.contains c.toNat = false := (isWordPart_iff.1 hpart).2
    have hmarks : Ranges.contains [(1, 47), (59, 64), (91, 96), (123, 127)] c.toNat = false := by
      simp only [Ranges.contains, List.any_eq_false, Bool.and_eq_true, decide_eq_true_eq]
      intro r hr
      have hbound : r.2 < 128 := by
        revert r
        decide
      omega
    rw [isKeyChar, keyGaps, Ranges.contains, List.any_append, Bool.not_eq_true', Bool.or_eq_false_iff]
    exact ⟨hmarks, hblank⟩

theorem isKeyChar_of_mem_upperChar (hc : isKeyChar c = true) (h : d ∈ upperChar c) : isKeyChar d = true := by
  unfold upperChar at h
  split at h
  · rename_i hascii
    have all := of_ascii (q := fun c => !isKeyChar c || isKeyChar c.toUpper) (by decide +kernel) hascii
    rw [List.mem_singleton.1 h]
    simpa [hc] using all
  · rw [isKeyChar, Bool.not_eq_true'] at hc ⊢
    exact contains_of_mem_mapCase (by decide +kernel) hc h

theorem isKeyChar_of_mem_lowerChar (hc : isKeyChar c = true) (h : d ∈ lowerChar c) : isKeyChar d = true := by
  unfold lowerChar at h
  split at h
  · rename_i hascii
    have all := of_ascii (q := fun c => !isKeyChar c || isKeyChar c.toLower) (by decide +kernel) hascii
    rw [List.mem_singleton.1 h]
    simpa [hc] using all
  · rw [isKeyChar, Bool.not_eq_true'] at hc ⊢
    exact contains_of_mem_mapCase (by decide +kernel) hc h

theorem isBlank_of_isKeyChar (h : isKeyChar c = true) : isBlank c = false := by
  rw [isKeyChar, keyGaps, Ranges.contains, List.any_append, Bool.not_eq_true', Bool.or_eq_false_iff] at h
  exact h.2

/-! ## Camel case -/

/-- The words of a name are made of its characters, except separators and white space. -/
theorem mem_of_mem_words {s word : List Char} {c : Char} (hword : word ∈ words s) (hc : c ∈ word) :
    c ∈ s ∧ isWordPart c = true := by
  induction hlength : s.length using Nat.strongRecOn generalizing s with
  | ind n ih =>
    cases s with
    | nil => cases hword
    | cons d r =>
      cases hd : isWordPart d with
      | false =>
        rw [words_cons_of_not_part hd] at hword
        exact (ih r.length (by simp [← hlength]) hword rfl).imp_left (List.mem_cons_of_mem d)
      | true =>
        rw [words_cons hd] at hword
        rcases List.mem_cons.1 hword with rfl | hword
        · rcases List.mem_cons.1 hc with rfl | hc
          · exact ⟨List.mem_cons_self, hd⟩
          · exact ⟨List.mem_cons_of_mem d ((List.takeWhile_sublist _).subset hc),
              List.all_eq_true.1 List.all_takeWhile c hc⟩
        · have hshorter := (List.dropWhile_suffix (l := r) isWordPart).length_le
          have hrest := ih (r.dropWhile isWordPart).length (by simp [← hlength]; omega) hword rfl
          exact hrest.imp_left fun hmem => List.mem_cons_of_mem d ((List.dropWhile_suffix _).subset hmem)

/-- What holds of the characters of a name that are no separators, and is kept by their capital and small forms,
holds of the characters of its camel case. -/
theorem of_mem_camelCase {p : Char → Prop} (upper : ∀ c, p c → ∀ d ∈ upperChar c, p d)
    (lower : ∀ c, p c → ∀ d ∈ lowerChar c, p d) {s : List Char} (hs : ∀ c ∈ s, isWordPart c = true → p c) :
    ∀ c ∈ camelCase s, p c := by
  have capital (word : List Char) (hword : ∀ c ∈ word, p c) : ∀ c ∈ capitalize word, p c := by
    intro d hd
    cases word with
    | nil => cases hd
    | cons c r =>
      rcases List.mem_append.1 hd with hd | hd
      · exact upper c (hword c (by simp)) d hd
      · exact hword d (by simp [hd])
  have studly : ∀ c ∈ studlyCase s, p c := by
    intro c hc
    obtain ⟨word, hword, hc⟩ := List.mem_flatMap.1 hc
    refine capital word (fun d hd => ?_) c hc
    obtain ⟨hmem, hpart⟩ := mem_of_mem_words hword hd
    exact hs d hmem hpart
  intro d hd
  unfold camelCase at hd
  cases hcase : studlyCase s with
  | nil =>
    rw [hcase] at hd
    cases hd
  | cons c r =>
    rw [hcase] at hd studly
    rcases List.mem_append.1 hd with hd | hd
    · exact lower c (studly c (by simp)) d hd
    · exact studly d (by simp [hd])

theorem isKeyChar_of_mem_camelCase {s : List Char} (hs : ∀ c ∈ s, Attribute.isNameChar c = true) :
    ∀ c ∈ camelCase s, isKeyChar c = true :=
  of_mem_camelCase (fun _ hc _ hd => isKeyChar_of_mem_upperChar hc hd)
    (fun _ hc _ hd => isKeyChar_of_mem_lowerChar hc hd) fun c hc hpart => isKeyChar_of_isNameChar (hs c hc) hpart

theorem afterFirst_suffix (mark s : List Char) : afterFirst mark s <:+ s := by
  unfold afterFirst
  split
  · rename_i before rest hcut
    exact ⟨before ++ mark, (cutAt?_eq_some hcut).symm⟩
  · exact List.suffix_rfl

end Text

namespace Attribute

open Text (isKeyChar)

/-- What holds of the characters of the camel case of a name, and of the marker, holds of those of its key. -/
theorem of_mem_entry {p : Char → Prop} {a : Written} (camel : ∀ c ∈ Text.camelCase a.name, p c)
    (mark : ∀ c ∈ bindMarker, p c) : ∀ c ∈ a.entry.1, p c := by
  have marked : ∀ c ∈ Text.withStart bindMarker (Text.camelCase a.name), p c := by
    intro c hc
    unfold Text.withStart at hc
    split at hc
    · exact camel c hc
    · rcases List.mem_append.1 hc with hc | hc
      · exact mark c hc
      · exact camel c hc
  intro c h
  unfold Written.entry at h
  dsimp only at h
  split at h
  · exact marked c ((Text.afterFirst_suffix _ _).subset h)
  · split at h
    · exact camel c ((Text.afterFirst_suffix _ _).subset h)
    · exact camel c h

/-- The characters of the key of an attribute whose name was read. -/
theorem isKeyChar_of_mem_entry {a : Written} (hname : ∀ c ∈ a.name, isNameChar c = true) :
    ∀ c ∈ a.entry.1, isKeyChar c = true :=
  of_mem_entry (Text.isKeyChar_of_mem_camelCase hname) (List.all_eq_true.1 (by decide))

end Attribute

end ComponentTags
