import XmlPipeline.Files.Disk
import XmlPipeline.Program.Visit
import XmlPipeline.Run.Execute
import XmlPipeline.Suite.FrontMatter
import XmlPipeline.Text.Lines
set_option autoImplicit false

namespace XmlPipeline.Suite
open Files (Storage)
open Run (RunError Value)

inductive Outcome where
  | pass
  | fail (reason : String)
  deriving DecidableEq, Repr

structure TestResult where
  path : String
  description : Option String
  outcome : Outcome
  deriving DecidableEq, Repr

def testEnding : String := ".test.xml"

def TestResult.label (r : TestResult) : String :=
  match r.description with
  | some text => text
  | none =>
    match Files.fileName? r.path with
    | some name => String.ofList (Text.dropEnding testEnding.toList name.toList)
    | none => "?"

structure Performance where
  result : Except RunError Value
  output : String

def trimmed (text : String) : String := String.ofList (Text.trim text.toList)

def valueFault? (e : Expectation) (actual : String) : Option String :=
  e.value.bind fun expected =>
    if actual = expected then none
    else some ("value mismatch\n  expected: " ++ Text.quote expected ++ "\n  actual:   " ++
      Text.quote actual)

/-- Blanks around the output do not count. -/
def outputFault? (e : Expectation) (actual : String) : Option String :=
  e.output.bind fun expected =>
    if trimmed actual = trimmed expected then none
    else some ("output mismatch\n  expected: " ++ trimmed expected ++ "\n  actual:   " ++
      trimmed actual)

def resultFault? (e : Expectation) (result : Except RunError Value) : Option String :=
  match e.error, result with
  | some part, .error error =>
    if Text.hasPart part.toList error.message.toList then none
    else some ("expected error containing \"" ++ part ++ "\", got: " ++ error.message)
  | some part, .ok _ =>
    some ("expected error containing \"" ++ part ++ "\", but execution succeeded")
  | none, .error error => some ("unexpected runtime error: " ++ error.message)
  | none, .ok value => valueFault? e value.display

/-- The output is compared also when the run has failed as expected. -/
def Expectation.judge (e : Expectation) (p : Performance) : Outcome :=
  match (resultFault? e p.result).or (outputFault? e p.output) with
  | some reason => .fail reason
  | none => .pass

def testFolder (path : String) : String := (Files.parent? path).getD "."

def perform (storage : Storage) (base : String) (program : Program) :
    Performance × List Log.Record :=
  let (state, result) := Run.runProgram storage.read base program { sink := {} }
  (⟨result, Text.decode state.sink.accepted⟩, state.journal)

def judgeSource (storage : Storage) (path : String) (e : Expectation) (source : String) :
    Outcome × List Log.Record :=
  match e.parseError, Program.parse source 0 with
  | true, .error _ => (.pass, [])
  | true, .ok _ => (.fail "expected parse error, but parsing succeeded", [])
  | false, .error error => (.fail ("unexpected parse error: " ++ error.message), [])
  | false, .ok program =>
    let (performance, journal) := perform storage (testFolder path) program
    (e.judge performance, journal)

def runTest (storage : Storage) (path : String) : TestResult × List Log.Record :=
  match storage.read path with
  | .error fault => (⟨path, none, .fail ("cannot read file: " ++ fault.message)⟩, [])
  | .ok content =>
    match readTestFile content with
    | .error fault => (⟨path, none, .fail ("frontmatter error: " ++ fault.message)⟩, [])
    | .ok (e, source) =>
      let (outcome, journal) := judgeSource storage path e source
      (⟨path, e.description, outcome⟩, Program.journal source ++ journal)

end XmlPipeline.Suite
