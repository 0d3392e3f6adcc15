import XmlPipeline.Program.Fault
import XmlPipeline.Program.Instruction
set_option autoImplicit false

/-!
Programs from sources: every element is classified by its name. Only text may stand in an action,
and text in a scope is dropped.
-/

namespace XmlPipeline
open Markup (Span Located Node Element elements ownText)

def Program.Fault.ofChild (parent : Action) (child : Element) : Fault :=
  match Tag.ofName? child.name with
  | none => .unknownTag child.name
  | some _ => .actionWithChildren parent child.name

def Instruction.assemble (e : Element) (body : Except (Located Program.Fault) (List Instruction)) :
    Except (Located Program.Fault) Instruction :=
  match Tag.ofName? e.name with
  | none => .error ⟨.unknownTag e.name, e.span⟩
  | some (.action action) =>
    match (elements e.children).head? with
    | some child => .error ⟨.ofChild action child, child.span⟩
    | none => .ok (.act action e.span (ownText e.children))
  | some (.scope scope) => body.map (.block scope e.span)

mutual

def Instruction.ofNode : Node → Except (Located Program.Fault) (List Instruction)
  | .text _ => .ok []
  | .element name span children =>
    (Instruction.assemble ⟨name, span, children⟩ (Instruction.ofNodes children)).map ([·])

/-- The first faulty element ends the classification. -/
def Instruction.ofNodes : List Node → Except (Located Program.Fault) (List Instruction)
  | [] => .ok []
  | node :: rest =>
    match Instruction.ofNode node with
    | .error fault => .error fault
    | .ok is => (Instruction.ofNodes rest).map (is ++ ·)

end

def Instruction.childrenOf (e : Element) : Except (Located Program.Fault) (List Instruction) :=
  Instruction.ofNodes e.children

def Instruction.ofElement (e : Element) : Except (Located Program.Fault) Instruction :=
  Instruction.assemble e (Instruction.ofNodes e.children)

/-- A root pipeline has instructions in it; other scopes may be empty. -/
def Instruction.checkRoot (root : Instruction) : Except (Located Program.Fault) Instruction :=
  match root with
  | .block .pipeline span [] => .error ⟨.emptyPipeline, span⟩
  | _ => .ok root

namespace Program

def document (text : String) (source : Nat) : Except ParseError Element :=
  (Markup.parseDocument text).mapError fun e => ⟨.markup e.value, e.span, source⟩

def parse (text : String) (source : Nat) : Except ParseError Program :=
  (document text source).bind fun root =>
    match (Instruction.ofElement root).bind Instruction.checkRoot with
    | .ok root => .ok ⟨root, source⟩
    | .error fault => .error ⟨fault.value, fault.span, source⟩

def ofFile (path : String) (content : Except Files.ReadFault String) (source : Nat) :
    Except ParseError Program :=
  match content with
  | .ok text => parse text source
  | .error fault => .error ⟨.unreadable path fault, .point 0, source⟩

end Program

end XmlPipeline
