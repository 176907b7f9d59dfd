import ComponentTags.Proofs.RewriteCount
import Mathlib.Algebra.GroupWithZero.Nat

/-!
# The tags that a compilation uses up

Every `<` of a text is one that a tag could start with. A stage takes over the values of attributes and the
names and contents of slots as they are, at most once each, and uses up the `<` of what it replaces: one for
a tag, two for a slot. So the replacements of a compilation are bounded by the `<` of the template, and
compiling again and again comes to an end after as many rounds. A data model would break the bound, for its
directive holds the attributes twice.
-/

namespace ComponentTags

/-! ## Attributes -/

namespace Assoc

variable {κ α : Type} [DecidableEq κ]

theorem sum_insert_le (f : α → Nat) (m : Assoc κ α) (key : κ) (value : α) :
    ((insert m key value).map fun entry => f entry.2).sum ≤
      (m.map fun entry => f entry.2).sum + f value := by
  induction m with
  | nil => simp [insert]
  | cons entry rest ih =>
    obtain ⟨k, a⟩ := entry
    by_cases hk : k = key
    · simp only [insert, hk, if_true, List.map_cons, List.sum_cons]
      omega
    · simp only [insert, hk, if_false, List.map_cons, List.sum_cons]
      omega

theorem sum_insertAll_le (f : α → Nat) (m entries : Assoc κ α) :
    ((insertAll m entries).map fun entry => f entry.2).sum ≤
      (m.map fun entry => f entry.2).sum + (entries.map fun entry => f entry.2).sum := by
  induction entries generalizing m with
  | nil => simp [insertAll]
  | cons entry rest ih =>
    have first := sum_insert_le f m entry.1 entry.2
    have later : ((insertAll m (entry :: rest)).map fun entry => f entry.2).sum ≤
        ((insert m entry.1 entry.2).map fun entry => f entry.2).sum +
          (rest.map fun entry => f entry.2).sum := ih (insert m entry.1 entry.2)
    rw [List.map_cons, List.sum_cons]
    omega

/-- An association weighs no more than the list of pairs that it was made of. -/
theorem sum_ofList_le (f : α → Nat) (entries : List (κ × α)) :
    ((ofList entries).map fun entry => f entry.2).sum ≤ (entries.map fun entry => f entry.2).sum := by
  have collected := sum_insertAll_le f ([] : Assoc κ α) entries
  rwa [List.map_nil, List.sum_nil, Nat.zero_add] at collected

end Assoc

namespace Attribute

variable {s t : List Char}

theorem Expanded.count_eq (h : Expanded s t) : t.count '<' = s.count '<' := by
  induction h with
  | nil => rfl
  | cons c _ ih => rw [List.count_cons, List.count_cons, ih]
  | @mark s t _ ih =>
    have hmark : bindMarker.count '<' = 0 := by decide
    have hcolon : (':' :: s).count '<' = s.count '<' := List.count_cons_of_ne (by decide)
    rw [List.count_append, hmark, ih, hcolon, Nat.zero_add]

theorem unquote_sublist (value : List Char) : (unquote value).Sublist value := by
  unfold unquote
  split
  · split
    · exact (List.dropLast_sublist _).trans (List.sublist_cons_self _ _)
    · exact List.Sublist.refl _
  · exact List.Sublist.refl _

theorem count_escape (value : List Char) : (escape value).count '<' = value.count '<' := by
  induction value with
  | nil => rfl
  | cons c value ih =>
    have hcons : escape (c :: value) = escape [c] ++ escape value := escape_append [c] value
    have hfirst : (escape [c]).count '<' = [c].count '<' := by
      by_cases hc : c = '\''
      · rw [hc]
        decide
      · rw [escape_of_not_mem (by simpa using Ne.symm hc)]
    rw [hcons, List.count_append, hfirst, ih, ← List.count_append, List.singleton_append]

theorem count_literal (value : List Char) : (literal value).count '<' = value.count '<' := by
  rw [literal_eq, List.count_cons_of_ne (by decide), List.count_append, count_escape]
  rfl

/-- What is emitted for an attribute holds no more `<` than its value. -/
theorem count_entry_le (name : List Char) (value : Option (List Char)) :
    (Written.mk name value).entry.2.count '<' ≤ (value.getD []).count '<' := by
  cases value with
  | none => exact Nat.le_of_eq (by decide : "true".toList.count '<' = 0)
  | some v =>
    have unquoted : (unquote v).count '<' ≤ v.count '<' := (unquote_sublist v).count_le '<'
    unfold Written.entry
    dsimp only
    rw [Option.getD_some]
    split
    · exact unquoted
    · rw [count_literal]
      exact unquoted

/-- The values that are read lie apart from each other in the text. -/
theorem sum_count_extract_le (s : List Char) :
    ((extract s).map fun a => a.entry.2.count '<').sum ≤ s.count '<' := by
  fun_induction extract s with
  | case1 s name rest hname value rest' hvalue ih =>
    have emitted := count_entry_le name (some value)
    have hs := congrArg (List.count '<') (name?_append hname).1
    have hrest := congrArg (List.count '<') (value?_append hvalue)
    have hequals : ('=' :: (value ++ rest')).count '<' = (value ++ rest').count '<' :=
      List.count_cons_of_ne (by decide)
    rw [List.count_append] at hs
    rw [List.cons_append, hequals, List.count_append] at hrest
    rw [Option.getD_some] at emitted
    rw [List.map_cons, List.sum_cons]
    omega
  | case2 s name rest hname hvalue ih =>
    have emitted := count_entry_le name none
    have hs := congrArg (List.count '<') (name?_append hname).1
    rw [List.count_append] at hs
    rw [Option.getD_none, List.count_nil] at emitted
    rw [List.map_cons, List.sum_cons]
    omega
  | case3 => exact Nat.le_refl 0
  | case4 c s hname ih => exact Nat.le_trans ih List.count_le_count_cons

/-- The emitted values of a text hold no more `<` than the text. -/
theorem sum_count_parse_le (s : List Char) :
    ((parse s).map fun entry => entry.2.toList.count '<').sum ≤ s.count '<' := by
  have collected := Assoc.sum_ofList_le (fun value : String => value.toList.count '<')
    ((extract (expandShorthand s)).map fun a => (String.ofList a.entry.1, String.ofList a.entry.2))
  have read := sum_count_extract_le (expandShorthand s)
  rw [(expanded_expandShorthand s).count_eq] at read
  simp only [List.map_map, Function.comp_def, String.toList_ofList] at collected
  exact Nat.le_trans collected read

end Attribute

/-! ## Directives -/

namespace Directive

variable {spelling : Spelling} {c : Component} {attributes : Assoc String String}

theorem count_entriesText (keys : ∀ key value, (key, value) ∈ attributes → '<' ∉ key.toList) :
    (entriesText attributes).toList.count '<' =
      (attributes.map fun entry => entry.2.toList.count '<').sum := by
  have entry (key value : String) (hkey : '<' ∉ key.toList) :
      ("'" ++ key ++ "' => " ++ value).toList.count '<' = value.toList.count '<' := by
    simp [List.count_eq_zero_of_not_mem hkey]
  induction attributes with
  | nil => simp [entriesText]
  | cons first attributes ih =>
    obtain ⟨key, value⟩ := first
    have hfirst := entry key value (keys key value (by simp))
    cases attributes with
    | nil => simpa [entriesText] using hfirst
    | cons second attributes =>
      have hrest := ih fun key value hmem => keys key value (List.mem_cons_of_mem _ hmem)
      have hcons : entriesText ((key, value) :: second :: attributes) =
          ("'" ++ key ++ "' => " ++ value) ++ "," ++ entriesText (second :: attributes) := by
        simp [entriesText]
      have hcomma : ",".toList.count '<' = 0 := by decide
      rw [hcons, String.toList_append, String.toList_append, List.count_append, List.count_append,
        hfirst, hrest, hcomma, Nat.add_zero]
      simp only [List.map_cons, List.sum_cons]

/-- Neither the view nor the expression of the context stack holds a `<`, and there is no data model. -/
structure CopiesOnce (spelling : Spelling) (c : Component) : Prop where
  view : '<' ∉ c.view.toList
  modelless : Component.modelOf c.dataModel = none
  stack : '<' ∉ spelling.contextStack.plain.toList

theorem CopiesOnce.count_start (once : CopiesOnce spelling c) :
    (start spelling c attributes).toList.count '<' = (entriesText attributes).toList.count '<' := by
  have hview := List.count_eq_zero_of_not_mem once.view
  have hstack := List.count_eq_zero_of_not_mem once.stack
  unfold start
  split
  · simp [hstack]
  · simp [once.modelless, Spelling.contextRead, hview, hstack]

theorem CopiesOnce.count_finish (once : CopiesOnce spelling c) :
    (finish spelling c).toList.count '<' = 0 := by
  have hstack := List.count_eq_zero_of_not_mem once.stack
  unfold finish
  split
  · simp [hstack]
  · decide

theorem count_slot (name contents : List Char) :
    (slot name contents).count '<' = name.count '<' + contents.count '<' := by
  have hopen : "@slot('".toList.count '<' = 0 := by decide
  have hname : "')".toList.count '<' = 0 := by decide
  have hclose : "@endslot".toList.count '<' = 0 := by decide
  unfold slot
  rw [List.count_append, List.count_append, List.count_append, List.count_append, hopen, hname, hclose,
    Nat.zero_add, Nat.add_zero, Nat.add_zero]

end Directive

/-! ## Patterns -/

namespace Pattern

variable {α : Type} {p : Pattern α} {f : α → List Char} {cost : Nat}

/-- A bound on what one occurrence uses up carries over to all occurrences of a text. -/
theorem count_replace_add_le
    (uses : ∀ s a rest, p.match? s = some (a, rest) →
      (f a).count '<' + cost + rest.count '<' ≤ s.count '<') (s : List Char) :
    (p.replace f s).count '<' + cost * p.count s ≤ s.count '<' := by
  induction s using reading_induction p with
  | nil => simp
  | found s a rest h ih =>
    have used := uses s a rest h
    rw [replace_of_match h, count_of_match h, List.count_append, Nat.mul_add, Nat.mul_one]
    omega
  | skip c s h ih =>
    rw [replace_cons_of_none h, count_cons_of_none h, List.count_cons, List.count_cons]
    omega

end Pattern

namespace Markup

variable {name s text rest : List Char}

theorem sublist_of_selfClosing? (h : selfClosing? name s = some (text, rest)) :
    ('<' :: (text ++ rest)).Sublist s := by
  obtain ⟨r, after, rfl, hname, -, hread⟩ := selfClosing?_eq_some h
  obtain ⟨gap, hline, -, -⟩ := (readLine_runsToEnd _).1 hread
  have hafter : (text ++ rest).Sublist (after.dropWhile Text.isInlineBlank) := by
    rw [hline, List.append_assoc]
    apply (List.Sublist.refl text).append
    exact List.sublist_append_of_sublist_right (List.suffix_append ['/', '>'] rest).sublist
  apply List.Sublist.cons_cons
  exact hafter.trans ((List.dropWhile_sublist _).trans (afterName_suffix hname).sublist)

theorem sublist_of_opening? (h : opening? name s = some (text, rest)) :
    ('<' :: (text ++ rest)).Sublist s := by
  obtain ⟨r, after, rfl, hname, hread⟩ := opening?_eq_some h
  have hafter : (text ++ rest).Sublist after := by
    rw [openingRest?_append hread]
    exact (List.Sublist.refl text).append (List.sublist_cons_self '>' rest)
  apply List.Sublist.cons_cons
  exact hafter.trans (afterName_suffix hname).sublist

theorem sublist_of_closing? (h : closing? name s = some ((), rest)) : ('<' :: rest).Sublist s := by
  obtain ⟨r, after, rfl, hname, -, hend⟩ := closing?_eq_some h
  have hrest : rest <:+ r := (afterTagEnd?_suffix hend).trans (afterName_suffix hname)
  apply List.Sublist.cons_cons
  exact hrest.sublist.trans (List.sublist_cons_self '/' r)

theorem sublist_of_slotEnd? (h : slotEnd? s = some rest) : ('<' :: rest).Sublist s := by
  obtain ⟨gap, middle, last, rfl, -⟩ := slotEnd?_eq_some h
  have hrest : rest <:+ gap ++ '/' :: (middle ++ "slot".toList ++ (last ++ '>' :: rest)) :=
    ⟨gap ++ '/' :: (middle ++ "slot".toList ++ (last ++ ['>'])), by simp⟩
  exact hrest.sublist.cons_cons '<'

/-- A slot uses up the `<` of its opening and the `<` of its closing tag. -/
theorem sublist_of_slot? {found : FoundSlot} (h : slot? s = some (found, rest)) :
    ('<' :: (found.name ++ (found.contents ++ '<' :: rest))).Sublist s := by
  obtain ⟨r, after, header, body, rfl, hname, -, rfl, hfound, hcontents⟩ := slot?_eq_some h
  obtain ⟨before, behind, hheader, -⟩ := standsIn_of_slotName? hfound
  obtain ⟨closer, rfl, hend⟩ := slotContents?_eq_some hcontents
  have hin : found.name.Sublist header := by
    rw [hheader]
    exact (List.infix_append before found.name behind).sublist
  have hbody : (found.contents ++ '<' :: rest).Sublist ('>' :: (found.contents ++ closer)) :=
    ((List.Sublist.refl found.contents).append (sublist_of_slotEnd? hend)).cons '>'
  apply List.Sublist.cons_cons
  exact (hin.append hbody).trans (afterName_suffix hname).sublist

end Markup

/-! ## Stages -/

namespace Target

variable {t : Target}

theorem count_startText_le (once : Directive.CopiesOnce t.spelling t.component)
    (attributes : List Char) : (t.startText attributes).count '<' ≤ attributes.count '<' := by
  have keys : ∀ key value, (key, value) ∈ Attribute.parse attributes → '<' ∉ key.toList :=
    fun _ _ given hmem => absurd (Attribute.isKeyChar_of_mem_key given '<' hmem) (by decide)
  rw [startText, once.count_start, Directive.count_entriesText keys]
  exact Attribute.sum_count_parse_le attributes

theorem count_elementText_le (once : Directive.CopiesOnce t.spelling t.component)
    (attributes : List Char) : (t.elementText attributes).count '<' ≤ attributes.count '<' := by
  have hstart := count_startText_le once attributes
  have hfinish : t.finishText.count '<' = 0 := once.count_finish
  rw [t.elementText_eq_append, List.count_append, hfinish]
  exact hstart

end Target

namespace Stage

variable {t : Target}

/-- How many `<` an occurrence uses up: a slot has an opening and a closing tag. -/
def cost : Stage → Nat
  | slot => 2
  | selfClosing | opening | closing => 1

/-- What a stage replaces is paid for with `<` of the text. -/
theorem count_rewrite_add_le (once : Directive.CopiesOnce t.spelling t.component) (stage : Stage)
    (s : List Char) :
    (stage.rewrite t s).count '<' + stage.cost * stage.count t s ≤ s.count '<' := by
  cases stage with
  | slot =>
    apply Pattern.count_replace_add_le
    intro u found rest h
    have used := (Markup.sublist_of_slot? h).count_le '<'
    simp only [List.count_cons_self, List.count_append] at used
    rw [Directive.count_slot, cost]
    omega
  | selfClosing =>
    apply Pattern.count_replace_add_le
    intro u text rest h
    have used := (Markup.sublist_of_selfClosing? h).count_le '<'
    have emitted := Target.count_elementText_le once text
    rw [List.count_cons_self, List.count_append] at used
    rw [cost]
    omega
  | opening =>
    apply Pattern.count_replace_add_le
    intro u text rest h
    have used := (Markup.sublist_of_opening? h).count_le '<'
    have emitted := Target.count_startText_le once text
    rw [List.count_cons_self, List.count_append] at used
    rw [cost]
    omega
  | closing =>
    apply Pattern.count_replace_add_le
    intro u found rest h
    have used := (Markup.sublist_of_closing? h).count_le '<'
    have emitted : t.finishText.count '<' = 0 := once.count_finish
    rw [List.count_cons_self] at used
    rw [cost]
    omega

end Stage

/-! ## Reports -/

namespace Tally

/-- What the counts of a tally cost: slots count twice. -/
def spent (t : Tally) : Int :=
  t.total + (Assoc.get? t Stage.slot.label).getD 0

theorem spent_record (t : Tally) (stage : Stage) (count : Int) :
    (t.record stage.label count).spent = t.spent + stage.cost * count := by
  have htotal := total_record t stage.label count
  have hslot : Assoc.get? (t.record stage.label count) Stage.slot.label =
      if stage.label = Stage.slot.label then some ((Assoc.get? t stage.label).getD 0 + count)
      else Assoc.get? t Stage.slot.label := Assoc.get?_insert ..
  have single (other : stage.label ≠ Stage.slot.label) (hcost : stage.cost = 1) :
      (t.record stage.label count).spent = t.spent + stage.cost * count := by
    rw [spent, spent, htotal, hslot, if_neg other, hcost]
    omega
  cases stage with
  | slot =>
    rw [if_pos rfl] at hslot
    rw [spent, spent, htotal, hslot, Option.getD_some, Stage.cost]
    omega
  | selfClosing => exact single (by decide) rfl
  | opening => exact single (by decide) rfl
  | closing => exact single (by decide) rfl

end Tally

/-- How many occurrences a stage replaced, over all components. -/
def Report.replaced (r : Report) (stage : Stage) : Int :=
  r.components.foldr (fun c total => (Assoc.get? c.tally stage.label).getD 0 + total) 0

namespace Compiler

variable {compiler : Compiler} {components : List Component} {t : Target} {stages : List Stage}
  {tally : Tally} {s : List Char}

theorem count_rewriteStages_add_le (once : Directive.CopiesOnce t.spelling t.component) :
    ((rewriteStages t stages s).count '<' : Int) + (tallyStages t stages tally s).spent ≤
      s.count '<' + tally.spent := by
  induction stages generalizing tally s with
  | nil => exact Int.le_refl _
  | cons stage rest ih =>
    have first := Stage.count_rewrite_add_le once stage s
    have hrecord := Tally.spent_record tally stage (stage.count t s)
    have later : ((rewriteStages t rest (stage.rewrite t s)).count '<' : Int) +
        (tallyStages t rest (tally.record stage.label (stage.count t s)) (stage.rewrite t s)).spent ≤
        (stage.rewrite t s).count '<' + (tally.record stage.label (stage.count t s)).spent := ih
    have hfold : rewriteStages t (stage :: rest) s = rewriteStages t rest (stage.rewrite t s) := rfl
    rw [hfold, tallyStages]
    rw [← Int.natCast_mul] at hrecord
    omega

/-- Neither the views of the components nor the expression of the context stack hold a `<`, and no
component has a data model. -/
def CopiesOnce (compiler : Compiler) : Prop :=
  ∀ c ∈ compiler.components, Directive.CopiesOnce compiler.spelling c

theorem count_rewriteText_add_le (once : ∀ c ∈ components, Directive.CopiesOnce compiler.spelling c)
    (tagPrefix : Value) :
    ((compiler.rewriteText components s).count '<' : Int) +
      (Report.mk tagPrefix (compiler.reports components s)).total +
      (Report.mk tagPrefix (compiler.reports components s)).replaced .slot ≤ s.count '<' := by
  induction components generalizing s with
  | nil => simp [rewriteText, reports, Report.total, Report.replaced]
  | cons c rest ih =>
    have first : ((rewriteStages (compiler.target c) compiler.stages s).count '<' : Int) +
        (tallyStages (compiler.target c) compiler.stages [] s).spent ≤ s.count '<' + 0 :=
      count_rewriteStages_add_le (once c (by simp))
    have later := ih (s := rewriteStages (compiler.target c) compiler.stages s)
      fun d hd => once d (by simp [hd])
    rw [rewriteText_cons]
    simp only [reports, Report.total, Report.replaced, List.foldr_cons, ComponentReport.total,
      Tally.spent] at first later ⊢
    omega

/-- No stage counts down. -/
theorem getD_tallyStages_nonneg {name : String} (h : 0 ≤ (Assoc.get? tally name).getD 0) :
    0 ≤ (Assoc.get? (tallyStages t stages tally s) name).getD 0 := by
  induction stages generalizing tally s with
  | nil => exact h
  | cons stage rest ih =>
    apply ih
    rw [Tally.record, Assoc.get?_insert]
    split
    · rename_i hname
      rw [Option.getD_some, hname]
      omega
    · exact h

theorem replaced_reports_nonneg (tagPrefix : Value) (stage : Stage) :
    0 ≤ (Report.mk tagPrefix (compiler.reports components s)).replaced stage := by
  induction components generalizing s with
  | nil => exact Int.le_refl 0
  | cons c rest ih =>
    have hfirst : 0 ≤ (Assoc.get? (tallyStages (compiler.target c) compiler.stages [] s)
        stage.label).getD 0 := getD_tallyStages_nonneg (Int.le_refl 0)
    have hrest := ih (s := rewriteStages (compiler.target c) compiler.stages s)
    simp only [reports, Report.replaced, List.foldr_cons] at hrest ⊢
    omega

/-! ## Compiling again and again -/

/-- A text that is changed loses a `<`. -/
theorem count_rewriteText_lt (once : compiler.CopiesOnce)
    (changed : compiler.rewriteText compiler.components s ≠ s) :
    (compiler.rewriteText compiler.components s).count '<' < s.count '<' := by
  have spent := count_rewriteText_add_le (s := s) once compiler.tagPrefix
  have hslots : 0 ≤ (Report.mk compiler.tagPrefix (compiler.reports compiler.components s)).replaced .slot :=
    replaced_reports_nonneg compiler.tagPrefix .slot
  have hfound : compiler.countText compiler.components s ≠ 0 := fun hzero =>
    changed (rewriteText_eq_self_iff_countText.2 hzero)
  rw [total_reports] at spent
  omega

/-- The text after a number of compilations, each of the result of the one before. -/
def resultAfter (compiler : Compiler) : Nat → String → Option String
  | 0, text => some text
  | n + 1, text => (compiler.result? text).bind (compiler.resultAfter n)

/-- A text that a compilation leaves as it is stays so. -/
theorem resultAfter_of_result?_eq_self {text : String} (h : compiler.result? text = some text) (n : Nat) :
    compiler.resultAfter n text = some text := by
  induction n with
  | zero => rfl
  | succ n ih => rw [resultAfter, h, Option.bind_some, ih]

/-- As many compilations as a text has `<` come to a text that a further one leaves as it is. -/
theorem exists_settled (once : compiler.CopiesOnce) (succeeds : compiler.Succeeds compiler.components)
    (n : Nat) (text : String) (bound : text.toList.count '<' ≤ n) :
    ∃ settled, compiler.resultAfter n text = some settled ∧
      compiler.result? settled = some settled := by
  have hresult := result?_of_succeeds succeeds text
  by_cases hsame : compiler.rewriteText compiler.components text.toList = text.toList
  · rw [hsame, String.ofList_toList] at hresult
    exact ⟨text, resultAfter_of_result?_eq_self hresult n, hresult⟩
  · have hless := count_rewriteText_lt once hsame
    cases n with
    | zero => omega
    | succ n =>
      rw [resultAfter, hresult, Option.bind_some]
      apply exists_settled once succeeds n
      rw [String.toList_ofList]
      omega

/-- Every replacement uses up a `<` of the template, and that of a slot two of them. So a compilation that
is repeated as often as the template has `<` gives a text that compiling leaves as it is. -/
theorem compile_uses_tags (once : compiler.CopiesOnce) {text compiled : String} {report : Report}
    (h : compiler.compile text = .ok (compiled, report)) :
    (compiled.toList.count '<' : Int) + report.total + report.replaced .slot ≤
        text.toList.count '<' ∧
      ∃ settled, compiler.resultAfter (text.toList.count '<') text = some settled ∧
        compiler.result? settled = some settled := by
  have succeeds := succeeds_of_compile_eq_ok h
  refine ⟨?_, exists_settled once succeeds _ text (Nat.le_refl _)⟩
  rw [compile_of_succeeds succeeds] at h
  cases h
  rw [String.toList_ofList]
  exact count_rewriteText_add_le once compiler.tagPrefix

theorem forCard_copiesOnce : forCard.CopiesOnce := by
  intro c hc
  rw [List.mem_singleton.1 hc]
  constructor <;> decide

/-- The slot inside the other one is left to the second of at most five compilations. -/
theorem compile_uses_tags_of_nested_slots :
    forCard.CopiesOnce ∧ ∃ compiled report,
      forCard.compile "<slot name=\"a\"><slot name=\"b\"><x-card/></slot></slot>" =
        .ok (compiled, report) ∧
      (compiled.toList.count '<' : Int) + report.total + report.replaced .slot ≤
        "<slot name=\"a\"><slot name=\"b\"><x-card/></slot></slot>".toList.count '<' ∧
      ∃ settled,
        forCard.resultAfter ("<slot name=\"a\"><slot name=\"b\"><x-card/></slot></slot>".toList.count '<')
          "<slot name=\"a\"><slot name=\"b\"><x-card/></slot></slot>" = some settled ∧
        forCard.result? settled = some settled :=
  ⟨forCard_copiesOnce, _, _, compile_of_accepts forCard_accepts _,
    compile_uses_tags forCard_copiesOnce (compile_of_accepts forCard_accepts _)⟩

end Compiler

end ComponentTags
