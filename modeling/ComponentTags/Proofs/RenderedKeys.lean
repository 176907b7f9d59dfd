import ComponentTags.Directive
import ComponentTags.Proofs.HonouredShorthand
import ComponentTags.Proofs.LiteralReading

/-!
# Keys as they are rendered

Attributes are rendered as the entries of an array, each key between single quotes as it is: no backslash is put
into it. That is safe because of what a key can hold. Whatever text the attributes are read from, the camel case of
a name drops its separators, and no capital or small form brings in white space, a quote, a backslash or a mark of
tags. So the renderer reads each key back, up to the quote that was put behind it.
-/

namespace ComponentTags

namespace Directive

/-- The entries in front of another one. -/
def frontText (before : Assoc String String) : String :=
  if before = [] then "" else entriesText before ++ ","

/-- What stands behind the key of an entry, given its value and the entries behind it. -/
def valueText (value : String) (behind : Assoc String String) : String :=
  " => " ++ value ++ (if behind = [] then "" else "," ++ entriesText behind)

theorem entriesText_cons (key value : String) (behind : Assoc String String) :
    entriesText ((key, value) :: behind) = "'" ++ key ++ "'" ++ valueText value behind := by
  have harrow (s : String) : "' => " ++ s = "'" ++ (" => " ++ s) := by
    rw [← String.append_assoc]
    rfl
  cases behind with
  | nil => simp [entriesText, valueText, harrow, String.append_assoc]
  | cons second behind => simp [entriesText, valueText, harrow, String.append_assoc]

theorem entriesText_append_cons (before : Assoc String String) (key value : String)
    (behind : Assoc String String) :
    entriesText (before ++ (key, value) :: behind) =
      frontText before ++ ("'" ++ key ++ "'" ++ valueText value behind) := by
  rw [← entriesText_cons]
  by_cases hbefore : before = []
  · rw [hbefore, List.nil_append, frontText, if_pos rfl, String.empty_append]
  · rw [frontText, if_neg hbefore, entriesText, List.map_append,
      String.intercalate_append_of_ne_nil (by simpa using hbefore) (by simp)]
    rfl

end Directive

namespace Attribute

variable {s t u : List Char}

/-- A text without quotes and backslashes is read up to the quote behind it. -/
theorem readInner?_append (h : ∀ c ∈ u, c ≠ '\'' ∧ c ≠ '\\') : readInner? (u ++ '\'' :: s) = some (u, s) := by
  induction u with
  | nil => rfl
  | cons c u ih =>
    obtain ⟨hquote, hslash⟩ := h c (by simp)
    rw [List.cons_append, readInner?_cons hquote hslash, ih fun d hd => h d (by simp [hd])]
    rfl

/-- The marks that separate words, or open and close quotes and tags. -/
def keyMarks : List Char := "\"'\\-_<>=".toList

theorem not_mem_keyMarks {c : Char} (h : Text.isKeyChar c = true) : c ∉ keyMarks := by
  intro hc
  have others : keyMarks.all (fun d => !Text.isKeyChar d) = true := by decide
  have hmark := List.all_eq_true.1 others c hc
  rw [h] at hmark
  cases hmark

variable {key value : String}

theorem isKeyChar_of_mem_keys (h : key ∈ Assoc.keys (parse t)) : ∀ c ∈ key.toList, Text.isKeyChar c = true := by
  obtain ⟨⟨key, value⟩, hmem, rfl⟩ := List.mem_map.1 h
  exact isKeyChar_of_mem_key hmem

/-- Under a key stands the value of the last attribute that gives the key. -/
theorem mem_parse_iff :
    (key, value) ∈ parse t ↔
      ∃ before a behind, extract (expandShorthand t) = before ++ a :: behind ∧ a.emitted = (key, value) ∧
        ∀ b ∈ behind, b.emitted.1 ≠ key := by
  have hparse : parse t = Assoc.ofList ((extract (expandShorthand t)).map Written.emitted) := rfl
  rw [hparse, Assoc.mem_ofList_iff]
  constructor
  · rintro ⟨before, behind, heq, hlast⟩
    obtain ⟨before, rest, hwritten, rfl, hrest⟩ := List.map_eq_append_iff.1 heq
    obtain ⟨a, behind, rfl, ha, rfl⟩ := List.map_eq_cons_iff.1 hrest
    refine ⟨before, a, behind, hwritten, ha, fun b hb hkey => hlast ?_⟩
    exact List.mem_map.2 ⟨b.emitted, List.mem_map_of_mem hb, hkey⟩
  · rintro ⟨before, a, behind, hwritten, ha, hlast⟩
    refine ⟨before.map Written.emitted, behind.map Written.emitted, ?_, fun hmem => ?_⟩
    · rw [hwritten, List.map_append, List.map_cons, ha]
    · obtain ⟨entry, hentry, hkey⟩ := List.mem_map.1 hmem
      obtain ⟨b, hb, rfl⟩ := List.mem_map.1 hentry
      exact hlast b hb hkey

/-- Between quotes a key is read back, whatever follows. -/
theorem readLiteral?_key (h : key ∈ Assoc.keys (parse t)) (rest : String) :
    readLiteral? ("'" ++ key ++ "'" ++ rest).toList = some (key.toList, rest.toList) := by
  have hplain : ∀ c ∈ key.toList, c ≠ '\'' ∧ c ≠ '\\' := by
    intro c hc
    have hmark := not_mem_keyMarks (isKeyChar_of_mem_keys h c hc)
    constructor
    all_goals
      rintro rfl
      exact hmark (by decide)
  simpa [readLiteral?] using readInner?_append hplain

/-- What the keys of a text are. They differ, and they stand in the order of the first attributes that they were
read from, each with the value of the last such attribute. None holds white space or one of the marks. Where the
attributes are rendered, the renderer reads the literal of each key back as that key, up to its closing quote. -/
theorem parse_keys (t : List Char) :
    (Assoc.keys (parse t)).Nodup ∧
    Assoc.keys (parse t) = ((extract (expandShorthand t)).map (·.emitted.1)).eraseDups ∧
    (∀ key value, (key, value) ∈ parse t ↔
      ∃ before a behind, extract (expandShorthand t) = before ++ a :: behind ∧ a.emitted = (key, value) ∧
        ∀ b ∈ behind, b.emitted.1 ≠ key) ∧
    (∀ key ∈ Assoc.keys (parse t), ∀ c ∈ key.toList, Text.isBlank c = false ∧ c ∉ keyMarks) ∧
    ∀ before key value behind, parse t = before ++ (key, value) :: behind →
      Directive.entriesText (parse t) =
          Directive.frontText before ++ ("'" ++ key ++ "'" ++ Directive.valueText value behind) ∧
        readLiteral? ("'" ++ key ++ "'" ++ Directive.valueText value behind).toList =
          some (key.toList, (Directive.valueText value behind).toList) := by
  refine ⟨Assoc.nodup_keys_ofList _, ?_, fun key value => mem_parse_iff, fun key hkey c hc => ?_,
    fun before key value behind heq => ⟨?_, ?_⟩⟩
  · rw [parse, Assoc.keys_ofList, Assoc.keys, List.map_map]
    rfl
  · have hchar := isKeyChar_of_mem_keys hkey c hc
    exact ⟨Text.isBlank_of_isKeyChar hchar, not_mem_keyMarks hchar⟩
  · rw [heq, Directive.entriesText_append_cons]
  · have hkey : key ∈ Assoc.keys (parse t) := by simp [heq, Assoc.keys]
    exact readLiteral?_key hkey _

/-- A key keeps the place of its first attribute, and a quote in a value leaves the key behind it alone. -/
theorem parse_keys_of_repeated :
    parse "x_=1 my-id=\"it's\" x='2'".toList = [("x", "'2'"), ("myId", "'it\\'s'")] ∧
      Directive.entriesText [("x", "'2'"), ("myId", "'it\\'s'")] = "'x' => '2','myId' => 'it\\'s'" ∧
      readLiteral? "'myId' => 'it\\'s'".toList = some ("myId".toList, " => 'it\\'s'".toList) := by
  have hparse : parse "x_=1 my-id=\"it's\" x='2'".toList = [("x", "'2'"), ("myId", "'it\\'s'")] := by
    decide +kernel
  obtain ⟨-, -, -, -, hread⟩ := parse_keys "x_=1 my-id=\"it's\" x='2'".toList
  obtain ⟨htext, hkey⟩ := hread [("x", "'2'")] "myId" "'it\\'s'" [] hparse
  rw [hparse] at htext
  exact ⟨hparse, htext, hkey⟩

end Attribute

end ComponentTags
