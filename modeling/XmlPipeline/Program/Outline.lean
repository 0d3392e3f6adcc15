import XmlPipeline.Program.Dump
set_option autoImplicit false

namespace XmlPipeline.Instruction

def outlineLine : Nat × Instruction → String
  | (depth, i) =>
    indented 2 depth (i.tag.name ++ match i.payload? with
      | some payload => " " ++ Text.quote payload
      | none => "")

def outline (i : Instruction) : List String := i.preorder.map outlineLine

end XmlPipeline.Instruction
