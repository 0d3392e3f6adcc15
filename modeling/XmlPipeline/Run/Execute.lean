import XmlPipeline.Files.Path
import XmlPipeline.Log.Record
import XmlPipeline.Program.Instruction
import XmlPipeline.Run.Fault
import XmlPipeline.Run.Value
import XmlPipeline.Text.Quoted
set_option autoImplicit false

/-!
Execution: an instruction takes a value and gives the next one. The first failure ends a run; what
was printed before it stays in the sink.
-/

namespace XmlPipeline.Run
open Files (ReadFault)

structure Context where
  read : String → Except ReadFault String
  base : String
  source : Nat

structure State where
  sink : Sink
  journal : List Log.Record := []
  deriving Repr

def State.note (s : State) (record : Log.Record) : State :=
  { s with journal := s.journal ++ [record] }

def executing (i : Instruction) (input : Value) : Log.Record :=
  ⟨.debug, "interpreter::executor", "executing instruction",
    [("tag", i.tag.name), ("input", Text.quote input.typeName)]⟩

def handedOn (value : Value) : Log.Record :=
  ⟨.trace, "interpreter::executor", "accumulator handed on",
    [("value", Text.quote value.typeName)]⟩

def readingFile (path : String) : Log.Record :=
  ⟨.debug, "interpreter::builtins", "reading file", [("path", path)]⟩

/-- The text of a file. An error names the path as it was given. -/
def readText (ctx : Context) (path : String) (s : State) : State × Except Fault Value :=
  let resolved := Files.join ctx.base path
  (s.note (readingFile resolved),
    match ctx.read resolved with
    | .ok content => .ok (.text content)
    | .error fault => .error (.unreadable path fault))

def printedLine (content : String) : List UInt8 := Text.bytes (Text.quote content ++ "\n").toList

def printValue (value : Value) (s : State) : State × Except Fault Value :=
  match value with
  | .unit => (s, .error (.typeMismatch "String" value.typeName))
  | .text content =>
    match s.sink.write (printedLine content) with
    | (sink, .ok ()) => ({ s with sink }, .ok value)
    | (sink, .error fault) => ({ s with sink }, .error (.output fault))

def entryValue (scope : Scope) (input : Value) : Value :=
  match scope with
  | .pipeline => .unit
  | .input | .step => input

def perform (ctx : Context) (action : Action) (path : String) (input : Value) (s : State) :
    State × Except Fault Value :=
  match action with
  | .file => readText ctx path s
  | .print => printValue input s

mutual

def execute (ctx : Context) (i : Instruction) (input : Value) (s : State) :
    State × Except RunError Value :=
  match i with
  | .block scope span body =>
    executeAll ctx body (entryValue scope input) (s.note (executing (.block scope span body) input))
  | .act action span payload =>
    let (s, result) :=
      perform ctx action payload input (s.note (executing (.act action span payload) input))
    (s, result.mapError (⟨·, some span, ctx.source⟩))

def executeAll (ctx : Context) (is : List Instruction) (input : Value) (s : State) :
    State × Except RunError Value :=
  match is with
  | [] => (s, .ok input)
  | i :: rest =>
    match execute ctx i input s with
    | (s, .error e) => (s, .error e)
    | (s, .ok value) => executeAll ctx rest value (s.note (handedOn value))

end

/-- Runs a whole program. The sink is flushed at the end if nothing failed before. -/
def runProgram (read : String → Except ReadFault String) (base : String) (program : Program)
    (s : State) : State × Except RunError Value :=
  match execute ⟨read, base, program.source⟩ program.root .unit s with
  | (s, .error e) => (s, .error e)
  | (s, .ok value) =>
    let (sink, flushed) := s.sink.flush
    ({ s with sink },
      match flushed with
      | .ok () => .ok value
      | .error fault => .error ⟨.output fault, none, program.source⟩)

end XmlPipeline.Run
