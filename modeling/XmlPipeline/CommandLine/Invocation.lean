import XmlPipeline.CommandLine.Command
import XmlPipeline.CommandLine.Help
import XmlPipeline.CommandLine.Shorthand
import XmlPipeline.Diagnostic.Snippet
import XmlPipeline.Log.Filter
import XmlPipeline.Program.Outline
import XmlPipeline.Suite.Report
set_option autoImplicit false

namespace XmlPipeline.CommandLine
open Files (Storage)
open Suite (Notice)

structure Environment where
  logSetting : Option String
  terminal : Option String
  noColor : Option String
  forceColor : Option String
  deriving Repr

structure World where
  storage : Storage
  environment : Environment
  /-- Every write to standard output fails. -/
  outputFull : Bool

inductive Status where
  | success
  | failure
  | misuse
  | abort
  deriving DecidableEq, Repr

def Status.code : Status → Nat
  | .success => 0
  | .failure => 1
  | .misuse => 2
  | .abort => 101

structure Effect where
  status : Status
  output : List UInt8
  notices : List Notice := []
  colored : Bool := false
  filter : Log.Filter := .standard
  deriving Repr

def colorsDiagnostics (env : Environment) (noColor : Bool) : Bool :=
  !noColor && env.noColor.isNone && env.terminal.any (· ≠ "dumb")

def stylesHelp (env : Environment) : Bool :=
  env.forceColor.any (· ≠ "") && !env.noColor.any (· ≠ "")

def outputSink (full : Bool) : Run.Sink :=
  if full then { room := some 0, refusal := .deviceFull } else {}

/-- Writes a whole text to standard output. If it cannot be written, the program is aborted. -/
def emit (w : World) (text : String) (notices : List Notice) : Effect :=
  if w.outputFull ∧ text ≠ "" then { status := .abort, output := [], notices }
  else { status := .success, output := Text.bytes text.toList, notices }

def diagnose (w : World) (o : RunOptions) (source message : String) (span : Markup.Span)
    (notes : List String) : Notice :=
  .text (Diagnostic.Report.render (colorsDiagnostics w.environment o.noColor)
    ⟨message, o.file, source, span, notes⟩)

def runErrorNotice (w : World) (o : RunOptions) (source : String) (e : Run.RunError) : Notice :=
  match e.span? with
  | some span => diagnose w o source e.message span []
  | none => .line ("runtime error: " ++ e.message)

def programParsed (file : String) : Log.Record := ⟨.info, "xpl", "parsed program", [("file", file)]⟩

def pipelineFinished (value : Run.Value) : Log.Record :=
  ⟨.info, "xpl", "pipeline finished", [("value", Text.quote value.typeName)]⟩

/-- A quiet run has a sink of its own, which takes everything and is not shown. -/
def execute (w : World) (o : RunOptions) (source : String) (program : Program)
    (notices : List Notice) : Effect :=
  let sink := outputSink (w.outputFull && !o.quiet)
  let (state, result) := Run.runProgram w.storage.read o.baseDir program { sink }
  let output := if o.quiet then [] else state.sink.accepted
  let notices := notices ++ state.journal.map .record
  match result with
  | .ok value =>
    { status := .success, output, notices := notices ++ [.record (pipelineFinished value)] }
  | .error e =>
    { status := .failure, output, notices := notices ++ [runErrorNotice w o source e] }

def run (w : World) (o : RunOptions) : Effect :=
  match w.storage.read o.file with
  | .error fault =>
    { status := .failure, output := [],
      notices := [.line ("error: cannot read '" ++ o.file ++ "': " ++ fault.message)] }
  | .ok source =>
    let journal := (Program.journal source).map Notice.record
    match Program.parse source 0 with
    | .error e =>
      { status := .failure, output := [],
        notices := journal ++ [diagnose w o source e.message e.span e.notes] }
    | .ok program =>
      let notices := journal ++ [.record (programParsed o.file)]
      if o.check then
        { status := .success, output := [],
          notices := notices ++ [.line ("ok: " ++ o.file ++ " parsed successfully")] }
      else if o.ast then emit w (program.root.dumpPretty ++ "\n") notices
      else if o.tree then emit w (Text.unlines program.root.outline) notices
      else execute w o source program notices

def test (w : World) (o : TestOptions) : Effect :=
  if o.listCategories then
    { status := .success, output := [], notices := Suite.listCategories w.storage o.path }
  else
    let report := Suite.runTests w.storage o.path ⟨!o.noColor⟩ o.categories
    { status := if report.success then .success else .failure, output := [],
      notices := report.notices }

/-- Help that cannot be written is dropped. -/
def help (w : World) (text : String) : Effect :=
  { status := .success, output := if w.outputFull then [] else Text.bytes text.toList }

def renderNotices (filter : Log.Filter) (colored : Bool) (time : String) (notices : List Notice) :
    String :=
  String.join (notices.map fun
    | .text content => content
    | .record r => if filter.allows r then r.render colored time ++ "\n" else "")

def perform (w : World) : Command → Effect
  | .run o => { run w o with colored := !o.noColor }
  | .test o => { test w o with colored := !o.noColor }

/-- What the program does with its arguments, its own name among them. Nothing is done under a log
setting that cannot be taken apart. -/
def invoke (w : World) (args : List String) : Effect :=
  match readArguments (expandShorthand args) with
  | .ok command =>
    match Log.Filter.ofVariable? w.environment.logSetting with
    | some filter => { perform w command with filter }
    | none => { status := .abort, output := [] }
  | .error (.help topic) => help w (helpText (stylesHelp w.environment) topic)
  | .error .version => help w versionText
  -- What the reader of arguments says of a misuse is left out, so the status alone tells of it.
  | .error (.misuse _) => { status := .misuse, output := [] }

def errorText (time : String) (e : Effect) : String :=
  renderNotices e.filter e.colored time e.notices

end XmlPipeline.CommandLine
