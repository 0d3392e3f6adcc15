import XmlPipeline.Program.Instruction
set_option autoImplicit false

/-!
Sketches: trees with names for tags, from which programs are made that no source need spell.
-/

namespace XmlPipeline
open Markup (Span)

inductive Sketch where
  | node (tag : String) (span : Span) (payload : String) (children : List Sketch)
  deriving Inhabited

mutual

/-- Every name in a sketch is a tag, also in an action, although what is drawn there is dropped. -/
def Sketch.instruction? : Sketch → Option Instruction
  | .node tag span payload children =>
    match Tag.ofName? tag, Sketch.instructions? children with
    | some (.scope scope), some body => some (.block scope span body)
    | some (.action action), some _ => some (.act action span payload)
    | _, _ => none

def Sketch.instructions? : List Sketch → Option (List Instruction)
  | [] => some []
  | s :: rest =>
    match s.instruction?, Sketch.instructions? rest with
    | some i, some is => some (i :: is)
    | _, _ => none

end

end XmlPipeline
