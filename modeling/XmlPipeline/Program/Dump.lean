import XmlPipeline.Program.Instruction
import XmlPipeline.Text.Quoted
set_option autoImplicit false

namespace XmlPipeline
open Markup (Span)

def Markup.Span.dump (span : Span) : String := toString span.start ++ ".." ++ toString span.stop

def Scope.variant : Scope → String
  | .pipeline => "RootPipeline"
  | .input => "InputScope"
  | .step => "StepScope"

def Action.variant : Action → String
  | .file => "ReadFile"
  | .print => "PrintValue"

def Action.field : Action → String
  | .file => "path"
  | .print => "label"

namespace Instruction

mutual

def dump : Instruction → String
  | .block scope span body =>
    scope.variant ++ " \x7b children: [" ++ dumpAll body ++ "], span: " ++ span.dump ++ " \x7d"
  | .act action span payload =>
    action.variant ++ " \x7b " ++ action.field ++ ": " ++ Text.quote payload ++ ", span: " ++
      span.dump ++ " \x7d"

def dumpAll : List Instruction → String
  | [] => ""
  | [i] => i.dump
  | i :: j :: rest => i.dump ++ ", " ++ dumpAll (j :: rest)

end

def indented (width depth : Nat) (line : String) : String :=
  String.ofList (List.replicate (width * depth) ' ') ++ line

mutual

def dumpLines (depth : Nat) (ending : String) : Instruction → List String
  | .block scope span body =>
    [indented 4 depth (scope.variant ++ " \x7b")] ++
      (if body.isEmpty then [indented 4 (depth + 1) "children: [],"]
        else [indented 4 (depth + 1) "children: ["] ++ dumpLinesAll (depth + 2) body ++
          [indented 4 (depth + 1) "],"]) ++
      [indented 4 (depth + 1) ("span: " ++ span.dump ++ ","), indented 4 depth ("\x7d" ++ ending)]
  | .act action span payload =>
    [indented 4 depth (action.variant ++ " \x7b"),
      indented 4 (depth + 1) (action.field ++ ": " ++ Text.quote payload ++ ","),
      indented 4 (depth + 1) ("span: " ++ span.dump ++ ","),
      indented 4 depth ("\x7d" ++ ending)]

def dumpLinesAll (depth : Nat) : List Instruction → List String
  | [] => []
  | i :: rest => dumpLines depth "," i ++ dumpLinesAll depth rest

end

def dumpPretty (i : Instruction) : String := "\n".intercalate (dumpLines 0 "" i)

end Instruction

end XmlPipeline
