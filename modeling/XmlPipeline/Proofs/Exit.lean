import XmlPipeline.CommandLine.Invocation
import XmlPipeline.Proofs.Stopping
set_option autoImplicit false

/-!
Exit statuses: what the status of a run tells. Main statement: it is 0 if all that was asked for was
done and 1 if not, as long as the program is not aborted. It is aborted where it cannot write out
the instructions that it was asked to show, and where the log setting cannot be taken apart.
-/

namespace XmlPipeline.CommandLine
open Markup (Located)
open Run (Script Value linesBytes)

def RunOptions.Shows (o : RunOptions) : Prop := o.check = false ∧ (o.ast = true ∨ o.tree = true)

def RunOptions.Executes (o : RunOptions) : Prop :=
  o.check = false ∧ o.ast = false ∧ o.tree = false

theorem RunOptions.Executes.not_shows {o : RunOptions} (h : o.Executes) : ¬ o.Shows := by
  obtain ⟨_, ha, ht⟩ := h
  rintro ⟨_, hs⟩
  simp [ha, ht] at hs

/-- What would be printed and come to if the instructions were executed. -/
def programScript (w : World) (o : RunOptions) (program : Program) : Script :=
  Run.script ⟨w.storage.read, o.baseDir, program.source⟩ (Run.flatten program.root) .unit

/-- What has to be written to standard output. -/
def dueOutput (w : World) (o : RunOptions) (program : Program) : List UInt8 :=
  if o.check then []
  else if o.ast then Text.bytes (program.root.dumpPretty ++ "\n").toList
  else if o.tree then Text.bytes (Text.unlines program.root.outline).toList
  else if o.quiet then []
  else linesBytes (programScript w o program).lines

def execution (w : World) (o : RunOptions) (program : Program) :
    Run.State × Except Run.RunError Value :=
  Run.runProgram w.storage.read o.baseDir program
    { sink := outputSink (w.outputFull && !o.quiet) }

/-- The file holds a program, and all is done with it that was asked for. -/
def Accomplished (w : World) (o : RunOptions) : Prop :=
  ∃ text program, w.storage.read o.file = .ok text ∧ Program.parse text 0 = .ok program ∧
    (w.outputFull = true → dueOutput w o program = []) ∧
    (o.Executes → ∃ value, (execution w o program).2 = .ok value)

/-- The program is aborted: its log setting cannot be taken apart, or it has instructions to show
and cannot write them out. -/
def Aborts (w : World) (o : RunOptions) : Prop :=
  Log.Filter.ofVariable? w.environment.logSetting = none ∨
    (w.outputFull = true ∧ o.Shows ∧
      ∃ text program, w.storage.read o.file = .ok text ∧ Program.parse text 0 = .ok program)

theorem outline_ne_nil (i : Instruction) : i.outline ≠ [] := by
  cases i <;> simp [Instruction.outline, Instruction.preorder, Instruction.preorderFrom]

theorem unlines_ne_empty {lines : List String} (h : lines ≠ []) : Text.unlines lines ≠ "" := by
  cases lines with
  | nil => exact absurd rfl h
  | cons line rest =>
    intro he
    have hl := congrArg String.length he
    simp [Text.unlines] at hl

inductive Course (w : World) (o : RunOptions) : Effect → Prop where
  | unreadable {fault : Files.ReadFault} (unread : w.storage.read o.file = .error fault)
      (notices : List Suite.Notice) : Course w o { status := .failure, output := [], notices }
  | faulty {text : String} {e : ParseError} (readable : w.storage.read o.file = .ok text)
      (refused : Program.parse text 0 = .error e) (notices : List Suite.Notice) :
      Course w o { status := .failure, output := [], notices }
  | checked {text : String} {program : Program} (readable : w.storage.read o.file = .ok text)
      (parsed : Program.parse text 0 = .ok program) (check : o.check = true)
      (notices : List Suite.Notice) : Course w o { status := .success, output := [], notices }
  | shown {text content : String} {program : Program} (readable : w.storage.read o.file = .ok text)
      (parsed : Program.parse text 0 = .ok program) (shows : o.Shows)
      (due : dueOutput w o program = Text.bytes content.toList) (notEmpty : content ≠ "")
      (notices : List Suite.Notice) : Course w o (emit w content notices)
  | executed {text : String} {program : Program} (readable : w.storage.read o.file = .ok text)
      (parsed : Program.parse text 0 = .ok program) (executes : o.Executes)
      (notices : List Suite.Notice) : Course w o (execute w o text program notices)

theorem course (w : World) (o : RunOptions) : Course w o (run w o) := by
  cases readable : w.storage.read o.file with
  | error fault =>
    simp only [run, readable]
    exact .unreadable readable _
  | ok text =>
    cases parsed : Program.parse text 0 with
    | error e =>
      simp only [run, readable, parsed]
      exact .faulty readable parsed _
    | ok program =>
      simp only [run, readable, parsed]
      cases hc : o.check with
      | true => exact .checked readable parsed hc _
      | false =>
        cases ha : o.ast with
        | true =>
          refine .shown readable parsed ⟨hc, .inl ha⟩ ?_ ?_ _
          · simp [dueOutput, hc, ha]
          · simp
        | false =>
          cases ht : o.tree with
          | true =>
            refine .shown readable parsed ⟨hc, .inr ht⟩ ?_ (unlines_ne_empty (outline_ne_nil _)) _
            simp [dueOutput, hc, ha, ht]
          | false => exact .executed readable parsed ⟨hc, ha, ht⟩ _

def conclusion (w : World) (o : RunOptions) (text : String) (notices : List Suite.Notice)
    (output : List UInt8) : Except Run.RunError Value → Effect
  | .ok value =>
    { status := .success, output, notices := notices ++ [.record (pipelineFinished value)] }
  | .error e =>
    { status := .failure, output, notices := notices ++ [runErrorNotice w o text e] }

theorem output_conclusion (w : World) (o : RunOptions) (text : String)
    (notices : List Suite.Notice) (output : List UInt8) (result : Except Run.RunError Value) :
    (conclusion w o text notices output result).output = output := by
  cases result <;> rfl

theorem execute_eq_conclusion (w : World) (o : RunOptions) (text : String) (program : Program)
    (notices : List Suite.Notice) :
    execute w o text program notices =
      conclusion w o text (notices ++ (execution w o program).1.journal.map .record)
        (if o.quiet then [] else (execution w o program).1.sink.accepted)
        (execution w o program).2 := by
  rw [execute, ← execution]
  cases execution w o program with
  | mk state result => cases result <;> rfl

theorem observed_execution_of_full {w : World} {o : RunOptions} {program : Program}
    (full : w.outputFull = true) (loud : o.quiet = false) {line : Located (List UInt8)}
    {later : List (Located (List UInt8))}
    (h : (programScript w o program).lines = line :: later) :
    Run.observed (execution w o program) =
      (outputSink true, .error ⟨.output .deviceFull, some line.span, program.source⟩) := by
  have hsink : outputSink (w.outputFull && !o.quiet) = outputSink true := by simp [loud, full]
  rw [execution, hsink]
  exact Run.observed_runProgram_of_full rfl h

theorem dueOutput_eq_nil {w : World} {o : RunOptions} {program : Program} {value : Value}
    (executes : o.Executes) (full : w.outputFull = true)
    (h : (execution w o program).2 = .ok value) : dueOutput w o program = [] := by
  obtain ⟨hc, ha, ht⟩ := executes
  cases hq : o.quiet with
  | true => simp [dueOutput, hc, ha, ht, hq]
  | false =>
    cases hlines : (programScript w o program).lines with
    | nil => simp [dueOutput, hc, ha, ht, hq, hlines, linesBytes]
    | cons line later =>
      have hfails : (execution w o program).2 = .error _ :=
        congrArg Prod.snd (observed_execution_of_full full hq hlines)
      rw [hfails] at h
      cases h

theorem output_run {w : World} {o : RunOptions} {text : String} {program : Program}
    (takes : w.outputFull = false) (readable : w.storage.read o.file = .ok text)
    (parsed : Program.parse text 0 = .ok program) : (run w o).output = dueOutput w o program := by
  simp only [run, readable, parsed, dueOutput]
  split
  · rfl
  split
  · simp [emit, takes]
  split
  · simp [emit, takes]
  have hsink : outputSink (w.outputFull && !o.quiet) = {} := by simp [takes, outputSink]
  rw [execute_eq_conclusion, output_conclusion, execution, hsink,
    Run.accepted_runProgram_of_unlimited rfl]
  rfl

theorem status_run (w : World) (o : RunOptions) :
    (run w o).status ≠ .misuse ∧
    ((run w o).status = .abort ↔ w.outputFull = true ∧ o.Shows ∧
      ∃ text program, w.storage.read o.file = .ok text ∧ Program.parse text 0 = .ok program) ∧
    ((run w o).status = .success ↔ Accomplished w o) := by
  have hcourse := course w o
  generalize run w o = effect at hcourse
  cases hcourse with
  | unreadable unread notices => simp [Accomplished, unread]
  | faulty readable refused notices => simp [Accomplished, readable, refused]
  | checked readable parsed check notices =>
    simp [Accomplished, readable, parsed, RunOptions.Shows, RunOptions.Executes, check, dueOutput]
  | @shown text content program readable parsed shows due notEmpty notices =>
    have hidle : ¬ o.Executes := fun executes => executes.not_shows shows
    have hdue : dueOutput w o program ≠ [] := by
      rw [due]
      exact Text.bytes_ne_nil (by simpa using notEmpty)
    cases hfull : w.outputFull with
    | true => simp [emit, Accomplished, readable, parsed, shows, hidle, hdue, hfull, notEmpty]
    | false => simp [emit, Accomplished, readable, parsed, hidle, hfull]
  | @executed text program readable parsed executes notices =>
    have hstill : ¬ o.Shows := executes.not_shows
    rw [execute_eq_conclusion]
    cases hresult : (execution w o program).2 with
    | ok value =>
      have hdue (hfull : w.outputFull = true) := dueOutput_eq_nil executes hfull hresult
      simpa [conclusion, Accomplished, readable, parsed, hstill, hresult] using hdue
    | error e => simp [conclusion, Accomplished, readable, parsed, hstill, hresult, executes]

theorem invoke_of_run {w : World} {args : List String} {o : RunOptions}
    (h : readArguments (expandShorthand args) = .ok (.run o)) :
    invoke w args =
      match Log.Filter.ofVariable? w.environment.logSetting with
      | some filter => { run w o with colored := !o.noColor, filter }
      | none => { status := .abort, output := [] } := by
  rw [invoke, h]
  rfl

/-- A run that is not aborted tells by its status if all was done. -/
theorem exit_status_of_run (w : World) {args : List String} {o : RunOptions}
    (h : readArguments (expandShorthand args) = .ok (.run o)) :
    ((invoke w args).status.code = 101 ↔ Aborts w o) ∧
    (¬ Aborts w o →
      ((invoke w args).status.code = 0 ↔ Accomplished w o) ∧
      ((invoke w args).status.code = 1 ↔ ¬ Accomplished w o)) := by
  rw [invoke_of_run h]
  cases hfilter : Log.Filter.ofVariable? w.environment.logSetting with
  | none =>
    have habort : Aborts w o := .inl hfilter
    exact ⟨by simp [Status.code, habort], fun hno => absurd habort hno⟩
  | some filter =>
    obtain ⟨hmisuse, habort, hsuccess⟩ := status_run w o
    have haborts : Aborts w o ↔ (run w o).status = .abort := by simp [Aborts, hfilter, habort]
    rw [haborts, ← hsuccess]
    cases hstatus : (run w o).status with
    | misuse => exact absurd hstatus hmisuse
    | success => simp [Status.code]
    | failure => simp [Status.code]
    | abort => simp [Status.code]

def uniformWorld (text : String) (outputFull : Bool) : World where
  storage := { read := fun _ => .ok text, isFile := fun _ => true, folder? := fun _ => none }
  environment := { logSetting := none, terminal := none, noColor := none, forceColor := none }
  outputFull

def RunOptions.plain (file : String) : RunOptions :=
  { file, check := false, ast := false, tree := false, quiet := false, baseDir := ".",
    noColor := false }

theorem exit_status_of_run_quiet :
    readArguments (expandShorthand ["xpl", "-q", "p.xml"]) =
      .ok (.run { RunOptions.plain "p.xml" with quiet := true }) ∧
    (invoke (uniformWorld "<step><file>a</file><print/></step>" true)
      ["xpl", "-q", "p.xml"]).status.code = 0 ∧
    Accomplished (uniformWorld "<step><file>a</file><print/></step>" true)
      { RunOptions.plain "p.xml" with quiet := true } := by
  have hargs : readArguments (expandShorthand ["xpl", "-q", "p.xml"]) =
      .ok (.run { RunOptions.plain "p.xml" with quiet := true }) := by
    rfl
  have hcode : (invoke (uniformWorld "<step><file>a</file><print/></step>" true)
      ["xpl", "-q", "p.xml"]).status.code = 0 := by
    decide +kernel
  obtain ⟨habort, hstatus⟩ :=
    exit_status_of_run (uniformWorld "<step><file>a</file><print/></step>" true) hargs
  have hruns : ¬ Aborts (uniformWorld "<step><file>a</file><print/></step>" true)
      { RunOptions.plain "p.xml" with quiet := true } := by
    rw [← habort, hcode]
    decide
  exact ⟨hargs, hcode, (hstatus hruns).1.1 hcode⟩

/-- An outline that cannot be written out aborts the program, where an execution would have failed
with 1. -/
theorem exit_status_of_run_outline :
    readArguments (expandShorthand ["xpl", "--tree", "p.xml"]) =
      .ok (.run { RunOptions.plain "p.xml" with tree := true }) ∧
    ¬ Accomplished (uniformWorld "<step/>" true) { RunOptions.plain "p.xml" with tree := true } ∧
    (invoke (uniformWorld "<step/>" true) ["xpl", "--tree", "p.xml"]).status.code = 101 := by
  refine ⟨rfl, ?_, by decide +kernel⟩
  rintro ⟨text, program, readable, parsed, written, _⟩
  have houtline := unlines_ne_empty (outline_ne_nil program.root)
  exact Text.bytes_ne_nil (by simpa using houtline) (written rfl)

end XmlPipeline.CommandLine
