import ComponentTags.Proofs.FixedPoint

/-!
# The counts of a compilation

A report adds up what the stages found, each in the text that the ones before it left. Nothing that a stage
overwrites comes back later, so the total is zero exactly if no stage finds anything in the template, and
that is exactly if the template stays as it is.
-/

namespace ComponentTags

namespace Tally

variable {t : Tally} {name other : String} {count : Int}

theorem total_cons (entry : String × Int) (t : Tally) : total (entry :: t) = entry.2 + total t := rfl

/-- A count that is written replaces the one before. -/
theorem total_insert (t : Tally) (name : String) (count : Int) :
    total (Assoc.insert t name count) + (Assoc.get? t name).getD 0 = total t + count := by
  induction t with
  | nil => simp [Assoc.insert, Assoc.get?, total]
  | cons entry rest ih =>
    obtain ⟨k, n⟩ := entry
    by_cases hk : k = name
    · simp only [Assoc.insert, Assoc.get?, hk, if_true, total_cons, Option.getD_some]
      omega
    · simp only [Assoc.insert, Assoc.get?, hk, if_false, total_cons]
      omega

/-- A record adds to the total. -/
theorem total_record (t : Tally) (name : String) (count : Int) :
    (t.record name count).total = t.total + count := by
  have written := total_insert t name ((Assoc.get? t name).getD 0 + count)
  unfold record
  omega

end Tally

namespace Compiler

variable {compiler : Compiler} {components : List Component} {t : Target} {stages : List Stage}
  {tally : Tally} {s : List Char}

/-- How many occurrences stages find, each in the text that the ones before it left. -/
def countStages (t : Target) : List Stage → List Char → Nat
  | [], _ => 0
  | stage :: rest, s => stage.count t s + countStages t rest (stage.rewrite t s)

/-- How many occurrences the stages of components find, each in the text that the ones before it left. -/
def countText (compiler : Compiler) : List Component → List Char → Nat
  | [], _ => 0
  | c :: rest, s =>
    countStages (compiler.target c) compiler.stages s +
      compiler.countText rest (rewriteStages (compiler.target c) compiler.stages s)

theorem total_tallyStages :
    (tallyStages t stages tally s).total = tally.total + countStages t stages s := by
  induction stages generalizing tally s with
  | nil => simp [tallyStages, countStages]
  | cons stage rest ih =>
    have hrecord := Tally.total_record tally stage.label (stage.count t s)
    rw [tallyStages, ih, countStages]
    omega

theorem total_reports (tagPrefix : Value) :
    (Report.mk tagPrefix (compiler.reports components s)).total = compiler.countText components s := by
  induction components generalizing s with
  | nil => rfl
  | cons c rest ih =>
    have hfirst : (ComponentReport.mk c.tag c.view
        (tallyStages (compiler.target c) compiler.stages [] s)).total =
        countStages (compiler.target c) compiler.stages s := by
      rw [ComponentReport.total, total_tallyStages]
      exact Int.zero_add _
    have hrest := ih (s := rewriteStages (compiler.target c) compiler.stages s)
    rw [Report.total] at hrest ⊢
    rw [reports, List.foldr_cons, hrest, hfirst, countText, Int.natCast_add]

/-- Stages find nothing one after another exactly if each finds nothing in the text at the start. -/
theorem countStages_eq_zero_iff :
    countStages t stages s = 0 ↔ ∀ stage ∈ stages, stage.count t s = 0 := by
  induction stages generalizing s with
  | nil => simp [countStages]
  | cons stage rest ih =>
    rw [countStages, Nat.add_eq_zero_iff, List.forall_mem_cons]
    apply and_congr_right
    intro hzero
    rw [Stage.rewrite_of_count_eq_zero hzero]
    exact ih

theorem rewriteStages_of_countStages_eq_zero (h : countStages t stages s = 0) :
    rewriteStages t stages s = s := by
  rcases rewriteStages_eq_or_overwritten t stages s with ⟨-, hsame⟩ | ⟨⟨stage, hstage, hsome⟩, -⟩
  · exact hsame
  · exact absurd (countStages_eq_zero_iff.1 h stage hstage) hsome

theorem countText_eq_zero_iff :
    compiler.countText components s = 0 ↔
      ∀ c ∈ components, ∀ stage ∈ compiler.stages, stage.count (compiler.target c) s = 0 := by
  induction components generalizing s with
  | nil => simp [countText]
  | cons c rest ih =>
    rw [countText, Nat.add_eq_zero_iff, List.forall_mem_cons, countStages_eq_zero_iff]
    apply and_congr_right
    intro hzero
    rw [rewriteStages_of_countStages_eq_zero (countStages_eq_zero_iff.2 hzero)]
    exact ih

/-- Components leave a text as it is exactly if they find nothing. -/
theorem rewriteText_eq_self_iff_countText :
    compiler.rewriteText components s = s ↔ compiler.countText components s = 0 :=
  rewriteText_eq_self_iff.trans countText_eq_zero_iff.symm

/-- A compilation that succeeds gives the rewritten text, and its report adds up what was found. -/
theorem eq_of_compile_eq_ok {text compiled : String} {report : Report}
    (h : compiler.compile text = .ok (compiled, report)) :
    compiled.toList = compiler.rewriteText compiler.components text.toList ∧
      report.components = compiler.reports compiler.components text.toList ∧
      report.total = compiler.countText compiler.components text.toList := by
  rw [compile_of_succeeds (succeeds_of_compile_eq_ok h)] at h
  cases h
  exact ⟨String.toList_ofList, rfl, total_reports compiler.tagPrefix⟩

/-- A compilation leaves a template as it is exactly if its report counts nothing. This holds for stages in
any order and number, whatever the components, the prefix and the spelling are. -/
theorem compiled_eq_iff_total_eq_zero {text compiled : String} {report : Report}
    (h : compiler.compile text = .ok (compiled, report)) :
    compiled = text ↔ report.total = 0 := by
  obtain ⟨hcompiled, -, htotal⟩ := eq_of_compile_eq_ok h
  rw [← String.toList_inj, hcompiled, htotal, rewriteText_eq_self_iff_countText, Int.natCast_eq_zero]

/-- A compiler for cards that looks for tags first and for slots after that, twice. -/
def slotsLast : Compiler :=
  { forCard with stages := [.closing, .opening, .slot, .slot] }

theorem slotsLast_accepts : slotsLast.Accepts slotsLast.components := forCard_accepts

/-- A slot in another one, with an opening tag in its contents. -/
theorem compiled_eq_iff_total_eq_zero_of_slots :
    ∃ compiled report,
      slotsLast.compile "<slot name=\"a\"><slot name=\"b\"><x-card></slot></slot>" =
        .ok (compiled, report) ∧
      compiled ≠ "<slot name=\"a\"><slot name=\"b\"><x-card></slot></slot>" ∧
      (compiled = "<slot name=\"a\"><slot name=\"b\"><x-card></slot></slot>" ↔ report.total = 0) := by
  have compiles := compile_of_accepts slotsLast_accepts
    "<slot name=\"a\"><slot name=\"b\"><x-card></slot></slot>"
  exact ⟨_, _, compiles, by decide +kernel, compiled_eq_iff_total_eq_zero compiles⟩

end Compiler

end ComponentTags
