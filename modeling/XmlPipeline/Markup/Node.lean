import XmlPipeline.Markup.Span
set_option autoImplicit false

namespace XmlPipeline.Markup

inductive Node where
  /-- The span is that of the start tag, or of the whole empty element. -/
  | element (name : String) (span : Span) (children : List Node)
  | text (content : String)
  deriving Repr

structure Element where
  name : String
  span : Span
  children : List Node := []
  deriving Repr

def Element.node (e : Element) : Node := .element e.name e.span e.children

def Node.element? : Node → Option Element
  | .element name span children => some ⟨name, span, children⟩
  | .text _ => none

def Node.text? : Node → Option String
  | .element .. => none
  | .text content => some content

def elements (nodes : List Node) : List Element := nodes.filterMap Node.element?

def ownText? (nodes : List Node) : Option String :=
  match nodes.filterMap Node.text? with
  | [] => none
  | parts => some (String.join parts)

def ownText (nodes : List Node) : String := (ownText? nodes).getD ""

end XmlPipeline.Markup
