import XmlPipeline.Files.Change
import XmlPipeline.Program.Parse
import XmlPipeline.Program.Sketch
import XmlPipeline.Run.Execute
set_option autoImplicit false

/-!
Sessions: programs, and parts of programs, run step by step on one disk and one sink. A step that
fails leaves the program and the value as they were.
-/

namespace XmlPipeline.Run
open Files (Disk)

structure Session where
  program : Option Program := none
  value : Value := .unit
  base : String
  source : Nat
  sink : Sink := {}
  disk : Disk := {}

inductive Step where
  | parse (text : String) (source : Nat)
  | build (sketch : Sketch)
  | setValue (value : Value)
  | setBase (folder : String)
  | setSource (source : Nat)
  | setSink (sink : Sink)
  | writeFile (path : String) (content : List UInt8)
  | makeFolders (path : String)
  | remove (path : String)
  | showNode (path : List Nat)
  /-- Runs the program in the session's folder, or else in the working folder. -/
  | run (inBase : Bool) (path : List Nat)
  | execute (path : List Nat)
  | executeBody (path : List Nat)
  | readText (path : String)
  | printValue

inductive Reply where
  | done
  | parsed (program : Program)
  | shown (node : Instruction)
  | notParsed (error : ParseError)
  | stopped (error : RunError)
  /-- A failure of an action that is part of no program. -/
  | failed (fault : Fault)
  | noSuchNode
  | badTree

namespace Session

def context (s : Session) : Context := ⟨s.disk.read, s.base, s.source⟩

def node? (s : Session) (path : List Nat) : Option Instruction :=
  s.program.bind fun p => p.root.at? path

def conclude {ε : Type} (s : Session) (reply : ε → Reply) :
    State × Except ε Value → Session × Reply
  | (state, .ok value) => ({ s with value, sink := state.sink }, .done)
  | (state, .error e) => ({ s with sink := state.sink }, reply e)

def step (s : Session) : Step → Session × Reply
  | .parse text source =>
    match Program.parse text source with
    | .ok program => ({ s with program := some program }, .parsed program)
    | .error e => (s, .notParsed e)
  | .build sketch =>
    match sketch.instruction? with
    | some root => ({ s with program := some ⟨root, s.source⟩ }, .done)
    | none => (s, .badTree)
  | .setValue value => ({ s with value }, .done)
  | .setBase base => ({ s with base }, .done)
  | .setSource source => ({ s with source }, .done)
  | .setSink sink => ({ s with sink }, .done)
  | .writeFile path content => ({ s with disk := s.disk.write path content }, .done)
  | .makeFolders path => ({ s with disk := s.disk.makeFolders path }, .done)
  | .remove path => ({ s with disk := s.disk.remove path }, .done)
  | .showNode path =>
    match s.node? path with
    | some node => (s, .shown node)
    | none => (s, .noSuchNode)
  | .run inBase path =>
    match s.program, s.node? path with
    | some program, some _ =>
      s.conclude .stopped
        (runProgram s.disk.read (if inBase then s.base else ".") program ⟨s.sink, []⟩)
    | _, _ => (s, .noSuchNode)
  | .execute path =>
    match s.node? path with
    | some node => s.conclude .stopped (Run.execute s.context node s.value ⟨s.sink, []⟩)
    | none => (s, .noSuchNode)
  | .executeBody path =>
    match s.node? path with
    | some node =>
      s.conclude .stopped (Run.executeAll s.context node.children s.value ⟨s.sink, []⟩)
    | none => (s, .noSuchNode)
  | .readText path => s.conclude .failed (Run.readText s.context path ⟨s.sink, []⟩)
  | .printValue => s.conclude .failed (Run.printValue s.value ⟨s.sink, []⟩)

end Session

end XmlPipeline.Run
