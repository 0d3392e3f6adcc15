import XmlPipeline.Proofs.Exit
import XmlPipeline.Proofs.Flags
import XmlPipeline.Proofs.Stopping
set_option autoImplicit false

/-!
Quiet runs. Main statement: a quiet run differs from a plain one in nothing but its output. Where
nothing can be written to standard output, they differ from the first line on that is due.
-/

namespace XmlPipeline.Run
open Markup (Span Located)

/-- Any sink will do: it is not written to, and nothing else depends on it. -/
def Mute (run : State → State × Except RunError Value) : Prop :=
  ∀ s sink, run { s with sink } = ({ (run s).1 with sink }, (run s).2)

theorem observed_execute_of_lines_eq_nil {ctx : Context} {i : Instruction} {input : Value}
    (h : (script ctx (flatten i) input).lines = []) (s : State) :
    observed (execute ctx i input s) = (s.sink, (script ctx (flatten i) input).ending) := by
  rw [observed_execute_eq_deliver, h]
  rfl

theorem lines_flattenAll_cons {ctx : Context} {i : Instruction} {rest : List Instruction}
    {input : Value} (h : (script ctx (flattenAll (i :: rest)) input).lines = []) :
    (script ctx (flatten i) input).lines = [] ∧
      ∀ value, (script ctx (flatten i) input).ending = .ok value →
        (script ctx (flattenAll rest) value).lines = [] := by
  rw [flattenAll, script_append, Script.andThen] at h
  cases he : (script ctx (flatten i) input).ending with
  | error e => exact ⟨by simpa [he] using h, fun value hv => by cases hv⟩
  | ok reached =>
    simp only [he, List.append_eq_nil_iff] at h
    refine ⟨h.1, fun value hv => ?_⟩
    cases hv
    exact h.2

mutual

theorem mute_execute (ctx : Context) (i : Instruction) (input : Value)
    (h : (script ctx (flatten i) input).lines = []) : Mute (execute ctx i input) := by
  intro s sink
  cases i with
  | block scope span body =>
    have hbody : (script ctx (flattenAll body) (entryValue scope input)).lines = [] := by
      cases scope <;> exact h
    rw [execute, execute]
    exact mute_executeAll ctx body (entryValue scope input) hbody
      (s.note (executing (.block scope span body) input)) sink
  | act action span payload =>
    cases action with
    | file =>
      rw [execute, execute]
      rfl
    | print =>
      cases input with
      | unit =>
        rw [execute, execute]
        rfl
      | text content => cases h

theorem mute_executeAll (ctx : Context) (is : List Instruction) (input : Value)
    (h : (script ctx (flattenAll is) input).lines = []) : Mute (executeAll ctx is input) := by
  intro s sink
  cases is with
  | nil =>
    rw [executeAll, executeAll]
  | cons i rest =>
    obtain ⟨hfirst, hrest⟩ := lines_flattenAll_cons h
    have hresult := congrArg Prod.snd (observed_execute_of_lines_eq_nil hfirst s)
    rw [executeAll, executeAll, mute_execute ctx i input hfirst s sink]
    cases hi : execute ctx i input s with
    | mk t result =>
      rw [hi] at hresult
      cases result with
      | error e => rfl
      | ok value =>
        exact mute_executeAll ctx rest value (hrest value hresult.symm) (t.note (handedOn value))
          sink

end

theorem runProgram_of_lines_eq_nil {read : String → Except Files.ReadFault String} {base : String}
    {program : Program}
    (h : (script ⟨read, base, program.source⟩ (flatten program.root) .unit).lines = [])
    {a b : Sink} (ha : a.flushFault = none) (hb : b.flushFault = none) :
    (runProgram read base program { sink := a }).1.journal =
        (runProgram read base program { sink := b }).1.journal ∧
      (runProgram read base program { sink := a }).2 =
        (runProgram read base program { sink := b }).2 ∧
      (runProgram read base program { sink := a }).1.sink.accepted = a.accepted := by
  have hsink := congrArg Prod.fst (observed_execute_of_lines_eq_nil h { sink := b })
  rw [runProgram, runProgram,
    mute_execute ⟨read, base, program.source⟩ program.root .unit h { sink := b } a]
  cases he : execute ⟨read, base, program.source⟩ program.root .unit { sink := b } with
  | mk t result =>
    have ht : t.sink = b := by simpa [he, observed] using hsink
    cases result with
    | error e => simp
    | ok value => simp [Sink.flush, ht, ha, hb]

end XmlPipeline.Run

namespace XmlPipeline.CommandLine
open Markup (Located)
open Run (linesBytes printSpan?)

/-- The lines of the prints that an execution comes to with a text, up to its end or to its first
failure. -/
def programLines (w : World) (o : RunOptions) : List (Located (List UInt8)) :=
  match w.storage.read o.file with
  | .ok text =>
    match Program.parse text 0 with
    | .ok program => (programScript w o program).lines
    | .error _ => []
  | .error _ => []

/-- There are none if the log setting cannot be taken apart. -/
def linesReached (w : World) (o : RunOptions) : List (Located (List UInt8)) :=
  if (Log.Filter.ofVariable? w.environment.logSetting).isSome then programLines w o else []

def Effect.mute (e : Effect) : Effect := { e with output := [] }

variable {w : World} {o : RunOptions} {text : String} {program : Program}

theorem run_of_executes (executes : o.Executes) (readable : w.storage.read o.file = .ok text)
    (parsed : Program.parse text 0 = .ok program) :
    run w o = execute w o text program
      ((Program.journal text).map .record ++ [.record (programParsed o.file)]) := by
  obtain ⟨hc, ha, ht⟩ := executes
  simp [run, readable, parsed, hc, ha, ht]

theorem run_quieted_cases (executes : o.Executes) :
    (∃ text program notices,
      w.storage.read o.file = .ok text ∧ Program.parse text 0 = .ok program ∧
      programLines w o = (programScript w o program).lines ∧
      run w o = execute w o text program notices ∧
      run w o.quieted = execute w o.quieted text program notices) ∨
    (programLines w o = [] ∧ run w o.quieted = run w o ∧ (run w o).output = []) := by
  have hfile : o.quieted.file = o.file := rfl
  cases readable : w.storage.read o.file with
  | error fault => exact .inr (by simp [run, programLines, readable, hfile])
  | ok text =>
    cases parsed : Program.parse text 0 with
    | ok program =>
      have hlines : programLines w o = (programScript w o program).lines := by
        simp only [programLines, readable, parsed]
      exact .inl ⟨text, program, _, rfl, parsed, hlines, run_of_executes executes readable parsed,
        run_of_executes (o := o.quieted) executes readable parsed⟩
    | error e =>
      refine .inr ?_
      simp only [run, programLines, readable, parsed, hfile]
      exact ⟨trivial, rfl, trivial⟩

theorem conclusion_quieted (w : World) (o : RunOptions) (text : String)
    (notices : List Suite.Notice) (output : List UInt8) (result : Except Run.RunError Run.Value) :
    conclusion w o.quieted text notices [] result =
      (conclusion w o text notices output result).mute := by
  cases result <;> rfl

theorem execute_quieted_of_takes (takes : w.outputFull = false) (notices : List Suite.Notice) :
    execute w o.quieted text program notices = (execute w o text program notices).mute := by
  have hrun : execution w o.quieted program = execution w o program := by
    simp [execution, RunOptions.quieted, takes]
  rw [execute_eq_conclusion, execute_eq_conclusion, hrun]
  exact conclusion_quieted _ _ _ _ _ _

theorem flushFault_outputSink (full : Bool) : (outputSink full).flushFault = none := by
  cases full <;> rfl

theorem accepted_outputSink (full : Bool) : (outputSink full).accepted = [] := by
  cases full <;> rfl

theorem execution_of_lines_eq_nil (h : (programScript w o program).lines = []) :
    (execution w o.quieted program).1.journal = (execution w o program).1.journal ∧
      (execution w o.quieted program).2 = (execution w o program).2 ∧
      (execution w o program).1.sink.accepted = [] := by
  obtain ⟨hjournal, hresult, _⟩ := Run.runProgram_of_lines_eq_nil h
    (flushFault_outputSink (w.outputFull && !o.quieted.quiet))
    (flushFault_outputSink (w.outputFull && !o.quiet))
  obtain ⟨_, _, haccepted⟩ := Run.runProgram_of_lines_eq_nil h
    (flushFault_outputSink (w.outputFull && !o.quiet)) (flushFault_outputSink false)
  exact ⟨hjournal, hresult, haccepted.trans (accepted_outputSink _)⟩

theorem execute_quieted_of_lines_eq_nil (h : (programScript w o program).lines = [])
    (notices : List Suite.Notice) :
    execute w o.quieted text program notices = execute w o text program notices := by
  obtain ⟨hjournal, hresult, haccepted⟩ := execution_of_lines_eq_nil h
  rw [execute_eq_conclusion, execute_eq_conclusion, hjournal, hresult, haccepted, ite_self]
  cases (execution w o program).2 <;> rfl

theorem output_run_quieted (executes : o.Executes) : (run w o.quieted).output = [] := by
  obtain ⟨text, program, notices, _, _, _, _, hquiet⟩ | ⟨_, hsame, hempty⟩ :=
    run_quieted_cases (w := w) executes
  · rw [hquiet, execute_eq_conclusion, output_conclusion]
    rfl
  · rw [hsame, hempty]

theorem run_quieted_of_takes (executes : o.Executes) (loud : o.quiet = false)
    (takes : w.outputFull = false) :
    run w o.quieted = (run w o).mute ∧ (run w o).output = linesBytes (programLines w o) := by
  obtain ⟨text, program, notices, readable, parsed, hlines, hrun, hquiet⟩ |
    ⟨hlines, hsame, hempty⟩ := run_quieted_cases (w := w) executes
  · constructor
    · rw [hquiet, hrun, execute_quieted_of_takes takes]
    · obtain ⟨hc, ha, ht⟩ := executes
      rw [output_run takes readable parsed, hlines]
      simp [dueOutput, hc, ha, ht, loud]
  · rw [hsame, hempty, hlines, Effect.mute, ← hempty]
    exact ⟨rfl, hempty⟩

theorem run_quieted_of_lines_eq_nil (executes : o.Executes) (hnone : programLines w o = []) :
    run w o.quieted = run w o := by
  obtain ⟨text, program, notices, _, _, hlines, hrun, hquiet⟩ | ⟨_, hsame, _⟩ :=
    run_quieted_cases (w := w) executes
  · rw [hquiet, hrun, execute_quieted_of_lines_eq_nil (hlines.symm.trans hnone)]
  · exact hsame

structure StopsAtLine (w : World) (o : RunOptions) (line : Located (List UInt8)) (e : Effect) :
    Prop where
  status : e.status = .failure
  output : e.output = []
  blames : ∃ text program notices prints,
    w.storage.read o.file = .ok text ∧ Program.parse text 0 = .ok program ∧
    program.root.inOrder.filterMap printSpan? = line.span :: prints ∧
    (execution w o program).2 =
      .error ⟨.output .deviceFull, some line.span, program.source⟩ ∧
    e.notices = notices ++
      [runErrorNotice w o text ⟨.output .deviceFull, some line.span, program.source⟩]

theorem run_of_full (executes : o.Executes) (loud : o.quiet = false) (full : w.outputFull = true)
    {line : Located (List UInt8)} {later : List (Located (List UInt8))}
    (hsome : programLines w o = line :: later) : StopsAtLine w o line (run w o) := by
  obtain ⟨text, program, notices, readable, parsed, hlines, hrun, _⟩ | ⟨hlines, _, _⟩ :=
    run_quieted_cases (w := w) executes
  · rw [hlines] at hsome
    have hstops := observed_execution_of_full full loud hsome
    rw [Run.observed, Prod.mk.injEq] at hstops
    obtain ⟨left, hprints⟩ := Run.prints_script_flatten
      ⟨w.storage.read, o.baseDir, program.source⟩ program.root .unit
    rw [← programScript, hsome] at hprints
    rw [hrun, execute_eq_conclusion, hstops.1, hstops.2, loud]
    exact ⟨rfl, rfl, text, program, _, _, readable, parsed, hprints, hstops.2, rfl⟩
  · rw [hlines] at hsome
    cases hsome

/-- Quiet changes nothing but the output, unless the output is what fails. -/
theorem quiet_changes_output_only (w : World) {o : RunOptions} {args quietArgs : List String}
    (plain : readArguments (expandShorthand args) = .ok (.run o)) (loud : o.quiet = false)
    (quiet : readArguments (expandShorthand quietArgs) = .ok (.run o.quieted))
    (executes : o.Executes) :
    (invoke w quietArgs).output = [] ∧
    (w.outputFull = false →
      invoke w quietArgs = (invoke w args).mute ∧
      (invoke w args).output = linesBytes (linesReached w o)) ∧
    (w.outputFull = true →
      (linesReached w o = [] → invoke w quietArgs = invoke w args) ∧
      ∀ line later, linesReached w o = line :: later → StopsAtLine w o line (invoke w args)) := by
  have hcolor : o.quieted.noColor = o.noColor := rfl
  rw [invoke_of_run plain, invoke_of_run quiet, linesReached, hcolor]
  cases hfilter : Log.Filter.ofVariable? w.environment.logSetting with
  | none => simp [Effect.mute, linesBytes]
  | some filter =>
    simp only [Option.isSome_some, if_true]
    refine ⟨output_run_quieted executes, ?_, ?_⟩
    · intro takes
      obtain ⟨hmute, houtput⟩ := run_quieted_of_takes executes loud takes
      rw [hmute]
      exact ⟨rfl, houtput⟩
    · intro full
      constructor
      · intro hlines
        rw [run_quieted_of_lines_eq_nil executes hlines]
      · intro line later hlines
        obtain ⟨status, output, blames⟩ := run_of_full executes loud full hlines
        exact ⟨status, output, blames⟩

theorem quiet_changes_output_only_full :
    (invoke (uniformWorld "<step><file>a</file><print/></step>" true)
      ["xpl", "run", "--quiet", "p.xml"]).output = [] ∧
    StopsAtLine (uniformWorld "<step><file>a</file><print/></step>" true) (.plain "p.xml")
      ⟨Run.printedLine "<step><file>a</file><print/></step>", ⟨20, 28⟩⟩
      (invoke (uniformWorld "<step><file>a</file><print/></step>" true)
        ["xpl", "run", "p.xml"]) := by
  have hplain : readArguments (expandShorthand ["xpl", "run", "p.xml"]) =
      .ok (.run (.plain "p.xml")) := by
    rfl
  have hlines : linesReached (uniformWorld "<step><file>a</file><print/></step>" true)
      (.plain "p.xml") = [⟨Run.printedLine "<step><file>a</file><print/></step>", ⟨20, 28⟩⟩] := by
    decide +kernel
  obtain ⟨hempty, _, hfull⟩ :=
    quiet_changes_output_only (uniformWorld "<step><file>a</file><print/></step>" true) hplain rfl
      (readArguments_quiet hplain rfl) ⟨rfl, rfl, rfl⟩
  exact ⟨hempty, (hfull rfl).2 _ _ hlines⟩

end XmlPipeline.CommandLine
