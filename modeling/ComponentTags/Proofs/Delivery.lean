import ComponentTags.Proofs.CommandSteps
import ComponentTags.Proofs.FailureReports
import ComponentTags.Proofs.JsonText

/-!
# Delivered results

`compile` is all or nothing, as far as the system lets it. Where it exits with 1, it has printed no result and
touched no file, unless writing the output file broke off: then that file, and no other, holds as much of the text
as was written by then. Where it exits with 0, the text that the compiler of the settings makes of the template is
in one place: in the output file if there is one, and else on the standard output, as it is or under a name of its
own in the data. A device that stands at the output file has taken the text.
-/

namespace ComponentTags.CommandLine

variable {system : System} {source : String} {output : Option String} {shared : SharedOptions}
  {arguments : List String} {verbose withReport : Bool} {outcome : Outcome} {text : String} {report : Report}
  {tree : FileTree} {path : Path} {content : Text.Bytes} {e : Failure}

/-- The data that `compile` prints: the template, the report and one more entry. -/
def dataText (source : String) (report : Report) (key text : String) : String :=
  Json.render (.lines 2)
    (.object [("source", .text source), ("report", report.toValue), (.text key, .text text)]) ++ "\n"

/-- What is printed is the data with one more entry, and a reader finds the text behind the key of the entry. -/
def PrintsEntry (out source : String) (report : Report) (key text : String) : Prop :=
  out = dataText source report key text ∧
    ∃ before behind, out = before ++ Json.string key ++ ": " ++ behind ∧
      Json.readValue 1 0 behind.toList = .ok (.text text, ['\n', '}', '\n'])

theorem printsEntry_dataText (source : String) (report : Report) (key text : String) :
    PrintsEntry (dataText source report key text) source report key text := by
  let layout : Json.Layout := .lines 2
  refine ⟨rfl, "\x7b" ++ layout.edge 1 ++ Json.string "source" ++ ": " ++ Json.string source ++
    layout.between 1 ++ Json.string "report" ++ ": " ++ Json.write layout 1 report.toValue ++
    layout.between 1, Json.string text ++ "\n\x7d\n", ?_, ?_⟩
  · have hedge : (Json.Layout.lines 2).edge 0 = "\n" := rfl
    simp only [dataText, Json.render, Json.write, Json.writeFields, Json.keyText, hedge,
      String.append_assoc, String.append_empty]
    rfl
  · rw [String.toList_append]
    exact Json.readValue_string text _ 0 0

/-- A run has delivered a text: to the output file if there is one, and else to the standard output. -/
def Delivered (before after : FileTree) (out source : String) (output : Option String) (json : Bool)
    (text : String) (report : Report) : Prop :=
  match outputFile? output with
  | some file =>
    before.Wrote after (Path.ofString file) (Text.encodeUtf8 text) ∧
      if json then PrintsEntry out source report "output" file else out = ""
  | none =>
    after = before ∧ if json then PrintsEntry out source report "compiled" text else out = text

/-- A report of a failure leaves the standard output empty. -/
theorem out_error (printer : Printer) (problem : Option Problem) (message code : String) :
    (printer.error problem message code).out = "" := by
  unfold Printer.error
  split <;> rfl

/-- The log leaves the standard output to what is printed behind it. -/
theorem out_log_append (verbose : Bool) (events : List Event) (streams : Streams) :
    (logStreams verbose events ++ streams).out = streams.out :=
  String.empty_append

section

variable [Services]

/-- What a failure that ended the writing of a text has left: the files as they were or, if the output file was
opened, the beginning of the text in that file. -/
def BrokeOff (before after : FileTree) (output : Option String) (text : String) (e : Failure) : Prop :=
  after = before ∨ ∃ file count found, outputFile? output = some file ∧ e = .obstacle found ∧
    Services.writeObstacle (Path.ofString file) (Text.encodeUtf8 text) = some (count, found) ∧
    before.Wrote after (Path.ofString file) ((Text.encodeUtf8 text).take count)

theorem writeFile_of_none (h : (writeFile tree path content).failure = none) :
    tree.Wrote (writeFile tree path content).tree path content := by
  unfold writeFile written at *
  cases hopen : Services.openObstacle path with
  | some found => simp [hopen] at h
  | none =>
    cases hobstacle : Services.writeObstacle path content with
    | some broken =>
      simp only [hopen, hobstacle] at h
      split at h <;> cases h
    | none =>
      simp only [hopen, hobstacle] at h ⊢
      cases hwrite : tree.write path content with
      | error fault => simp [hwrite] at h
      | ok after => exact FileTree.wrote_of_write hwrite

theorem writeFile_of_some (h : (writeFile tree path content).failure = some e) :
    (writeFile tree path content).tree = tree ∨ ∃ count found, e = .obstacle found ∧
      Services.writeObstacle path content = some (count, found) ∧
      tree.Wrote (writeFile tree path content).tree path (content.take count) := by
  unfold writeFile written at *
  cases hopen : Services.openObstacle path with
  | some found => exact .inl rfl
  | none =>
    cases hobstacle : Services.writeObstacle path content with
    | some broken =>
      obtain ⟨count, found⟩ := broken
      simp only [hopen, hobstacle] at h ⊢
      cases hwrite : tree.write path (content.take count) with
      | error fault => exact .inl rfl
      | ok after =>
        simp only [hwrite, Option.some.injEq] at h
        exact .inr ⟨count, found, h.symm, rfl, FileTree.wrote_of_write hwrite⟩
    | none =>
      simp only [hopen, hobstacle] at h ⊢
      cases hwrite : tree.write path content with
      | error fault => exact .inl rfl
      | ok after => simp [hwrite] at h

/-- What is printed about a text that was written or is to be printed delivers it. -/
theorem delivered_of_deliver (h : (deliver tree output text).failure = none) (source : String)
    (withReport json : Bool) (report : Report) :
    Delivered tree (deliver tree output text).tree
      (compilationStreams source output withReport json text report).out source output json text report := by
  unfold deliver at h ⊢
  unfold Delivered compilationStreams compilationData
  cases hfile : outputFile? output with
  | none =>
    cases json with
    | true => exact ⟨rfl, printsEntry_dataText source report "compiled" text⟩
    | false => exact ⟨rfl, rfl⟩
  | some file =>
    rw [hfile] at h
    refine ⟨writeFile_of_none h, ?_⟩
    cases json with
    | true => exact printsEntry_dataText source report "output" file
    | false => rfl

theorem brokeOff_of_deliver (h : (deliver tree output text).failure = some e) :
    BrokeOff tree (deliver tree output text).tree output text e := by
  unfold deliver at h ⊢
  cases hfile : outputFile? output with
  | none =>
    rw [hfile] at h
    cases h
  | some file =>
    rw [hfile] at h
    refine (writeFile_of_some h).imp_right ?_
    rintro ⟨count, found, he, hobstacle, hwrote⟩
    exact ⟨file, count, found, hfile, he, hobstacle, hwrote⟩

/-- A run that compiles a template and returns has made its text and delivered it, or it could not make the text or
could not write it to its end. -/
theorem ending_of_compile {ending : Ending}
    (h : (execute system (.compile source output withReport shared)).ending = .ok ending) :
    (ending.exitCode = 1 ∧ ending.streams.out = "" ∧
        ((∃ e, system.compiled source shared = .error e) ∧
            (execute system (.compile source output withReport shared)).tree = system.tree ∨
          ∃ text report e, system.compiled source shared = .ok (text, report) ∧
            (deliver system.tree output text).failure = some e ∧
            BrokeOff system.tree (execute system (.compile source output withReport shared)).tree output text e)) ∨
      ending.exitCode = 0 ∧ ∃ text report, system.compiled source shared = .ok (text, report) ∧
        Delivered system.tree (execute system (.compile source output withReport shared)).tree ending.streams.out
          source output shared.json text report := by
  have reported {code : String} {e : Failure} (h : failed isReportedByCompile shared.json code e = .ok ending) :
      ending.exitCode = 1 ∧ ending.streams.out = "" := by
    unfold failed at h
    split at h
    · cases h
      exact ⟨rfl, out_error ..⟩
    · cases h
  cases hcompiled : system.compiled source shared with
  | error e =>
    rw [execute_of_compile_error ((compileTemplate_result ..).trans hcompiled)] at h ⊢
    obtain ⟨hcode, hout⟩ := reported h
    exact .inl ⟨hcode, hout, .inl ⟨⟨e, rfl⟩, rfl⟩⟩
  | ok compiled =>
    obtain ⟨text, report⟩ := compiled
    have hresult := (compileTemplate_result ..).trans hcompiled
    cases hfailure : (deliver system.tree output text).failure with
    | some e =>
      rw [execute_of_deliver_error hresult hfailure] at h ⊢
      obtain ⟨hcode, hout⟩ := reported h
      exact .inl ⟨hcode, hout, .inr ⟨text, report, e, rfl, hfailure, brokeOff_of_deliver hfailure⟩⟩
    | none =>
      rw [execute_of_deliver hresult hfailure] at h ⊢
      cases h
      exact .inr ⟨rfl, text, report, rfl, delivered_of_deliver hfailure source withReport shared.json report⟩

/-- A command line that compiles a template and returns exits with 1, nothing on the standard output and all files as
they were, but for a file that breaks off with the text in it; or with 0 and the text delivered. Its steps, one after
another, come to the same. -/
theorem run_of_compile
    (h : Invocation.ofArguments arguments = .run verbose (.compile source output withReport shared))
    (hrun : run system arguments = .ok outcome) :
    perform system verbose (.compile source output withReport shared) ⟨system.tree, {}⟩ =
      .ok outcome.exitCode ⟨outcome.tree, outcome.streams⟩ ∧
    ((outcome.exitCode = 1 ∧ outcome.streams.out = "" ∧
        ((∃ e, system.compiled source shared = .error e) ∧ outcome.tree = system.tree ∨
          ∃ text report e, system.compiled source shared = .ok (text, report) ∧
            (deliver system.tree output text).failure = some e ∧
            BrokeOff system.tree outcome.tree output text e)) ∨
      outcome.exitCode = 0 ∧ ∃ text report, system.compiled source shared = .ok (text, report) ∧
        Delivered system.tree outcome.tree outcome.streams.out source output shared.json text report) := by
  constructor
  · have hinvocation := hrun
    rw [run, h] at hinvocation
    rw [perform_eq, hinvocation]
  · obtain ⟨ending, hending, rfl⟩ := run_eq_ok h hrun
    simp only [out_log_append]
    exact ending_of_compile hending

end

/-- A template without components is delivered to the output file. -/
theorem run_of_compile_page :
    let system : System := ⟨⟨⟨"/", []⟩, [(["page.html"], Text.encodeUtf8 "<p>")], []⟩, [], []⟩
    ∃ outcome text report, run system ["compile", "page.html", "-o", "out.html"] = .ok outcome ∧
      system.compiled "page.html" ⟨none, none, false⟩ = .ok (text, report) ∧
      Delivered system.tree outcome.tree outcome.streams.out "page.html" (some "out.html") false text
        report := by
  intro system
  have hcode : (run system ["compile", "page.html", "-o", "out.html"]).toOption.map (·.exitCode) = some 0 := by
    decide +kernel
  cases hrun : run system ["compile", "page.html", "-o", "out.html"] with
  | error e =>
    rw [hrun] at hcode
    cases hcode
  | ok outcome =>
    rw [hrun] at hcode
    have hrequest : Invocation.ofArguments ["compile", "page.html", "-o", "out.html"] =
        .run false (.compile "page.html" (some "out.html") false ⟨none, none, false⟩) := by
      decide
    rcases (run_of_compile hrequest hrun).2 with ⟨hone, -⟩ | ⟨-, text, report, hcompiled, hdelivered⟩
    · cases hcode.symm.trans (congrArg some hone)
    · exact ⟨outcome, text, report, rfl, hcompiled, hdelivered⟩

/-- A system whose disk is full: whatever is opened to write stays empty. -/
@[reducible]
def fullDisk : Services :=
  { Services.usual with writeObstacle := fun _ _ => some (0, .system "[Errno 28] No space left on device") }

/-- On a full disk, `compile` exits with 1 and the output file has lost what it held; and from the null device, to
which it delivers and exits with 0, the text cannot be read. -/
theorem run_of_lost_output :
    let system : System :=
      ⟨⟨⟨"/", []⟩, [(["page.html"], Text.encodeUtf8 "<p>"), (["out.html"], Text.encodeUtf8 "<b>")], []⟩, [], []⟩
    let ends (services : Services) (file : String) : Option (Nat × Option Text.Bytes) :=
      (@run services system ["compile", "page.html", "-o", file]).toOption.map fun outcome =>
        (outcome.exitCode, (outcome.tree.read (Path.ofString file)).toOption)
    ends fullDisk "out.html" = some (1, some []) ∧ ends Services.usual "/dev/null" = some (0, some []) := by
  decide +kernel

end ComponentTags.CommandLine
