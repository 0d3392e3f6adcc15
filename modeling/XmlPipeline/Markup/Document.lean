import XmlPipeline.Markup.Reading
import XmlPipeline.Markup.Reference
import XmlPipeline.Markup.Node
import XmlPipeline.Text.Blank
set_option autoImplicit false

namespace XmlPipeline.Markup

inductive Fault where
  | malformed (fault : SyntaxFault)
  | badReference (fault : ReferenceFault)
  /-- An end tag where no element is open. -/
  | strayEnd
  | notUtf8
  | noRoot
  | secondRoot
  | textOutsideRoot
  | unclosedElement (name : String)
  deriving DecidableEq, Repr

def Fault.message : Fault → String
  | .malformed fault => "malformed XML: " ++ fault.message
  | .badReference fault => "malformed XML: " ++ fault.message
  | .strayEnd => "malformed XML: closing tag without an open element"
  | .notUtf8 => "source is not valid UTF-8"
  | .noRoot => "program is empty: no top-level instruction"
  | .secondRoot => "document has more than one root element"
  | .textOutsideRoot => "text outside the root element"
  | .unclosedElement name => "element <" ++ name ++ "> is never closed"

/-- A document that has been read in part: the elements that are open, innermost first, and the
root once it is closed. -/
structure Builder where
  openElements : List Element := []
  root : Option Element := none
  deriving Repr

namespace Builder

def append (node : Node) : List Element → List Element
  | [] => []
  | inner :: outer => { inner with children := inner.children ++ [node] } :: outer

def attach (e : Element) (b : Builder) : Except (Located Fault) Builder :=
  if b.openElements ≠ [] then .ok { b with openElements := append e.node b.openElements }
  else if b.root.isSome then .error ⟨.secondRoot, e.span⟩
  else .ok { b with root := some e }

/-- Outside the root only blank text may stand, and it is dropped. -/
def text (content : String) (span : Span) (b : Builder) : Except (Located Fault) Builder :=
  if b.openElements ≠ [] then
    .ok { b with openElements := append (.text content) b.openElements }
  else if Text.allBlank content then .ok b
  else .error ⟨.textOutsideRoot, span⟩

def step (b : Builder) : Located Event → Except (Located Fault) Builder
  | ⟨.start name, span⟩ => .ok { b with openElements := ⟨name, span, []⟩ :: b.openElements }
  | ⟨.empty name, span⟩ => b.attach ⟨name, span, []⟩
  | ⟨.finish _, span⟩ =>
    match b.openElements with
    | [] => .error ⟨.strayEnd, span⟩
    | inner :: outer => { b with openElements := outer }.attach inner
  | ⟨.text run, span⟩ =>
    match resolve run with
    | .error fault => .error ⟨.badReference fault, span⟩
    | .ok content => b.text content span
  | ⟨.verbatim content, span⟩ => b.text content span
  | ⟨.aside, _⟩ => .ok b

/-- What has been built before the first event that does not fit, and that event's fault. -/
def run (b : Builder) : List (Located Event) → Builder × Option (Located Fault)
  | [] => (b, none)
  | event :: later =>
    match b.step event with
    | .error fault => (b, some fault)
    | .ok b => b.run later

def finish (b : Builder) : Except (Located Fault) Element :=
  match b.openElements, b.root with
  | inner :: _, _ => .error ⟨.unclosedElement inner.name, inner.span⟩
  | [], some root => .ok root
  | [], none => .error ⟨.noRoot, .point 0⟩

end Builder

def build (source : String) : Builder × Option (Located Fault) :=
  let reading := read source
  match Builder.run {} reading.events with
  | (b, some fault) => (b, some fault)
  | (b, none) => (b, reading.fault.map fun (fault, offset) => ⟨.malformed fault, .point offset⟩)

def parseDocument (source : String) : Except (Located Fault) Element :=
  match build source with
  | (_, some fault) => .error fault
  | (b, none) => b.finish

end XmlPipeline.Markup
