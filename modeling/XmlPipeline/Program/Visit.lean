import XmlPipeline.Log.Record
import XmlPipeline.Program.Parse
set_option autoImplicit false

namespace XmlPipeline
open Markup (Span Node Element)

structure Visit where
  name : String
  span : Span
  /-- The action that the element stands in directly. -/
  within : Option Action
  deriving DecidableEq, Repr

def Tag.action? : Option Tag → Option Action
  | some (.action a) => some a
  | _ => none

mutual

def Visit.ofNode (within : Option Action) : Node → List Visit
  | .text _ => []
  | .element name span children =>
    ⟨name, span, within⟩ :: Visit.ofNodes (Tag.action? (Tag.ofName? name)) children

def Visit.ofNodes (within : Option Action) : List Node → List Visit
  | [] => []
  | n :: rest => Visit.ofNode within n ++ Visit.ofNodes within rest

end

def Visit.isOffence (v : Visit) : Bool := (Tag.ofName? v.name).isNone || v.within.isSome

/-- The elements of a document that are classified before the first offence. -/
def Visit.classified (root : Element) : List Visit :=
  (Visit.ofNode none root.node).takeWhile (!·.isOffence)

namespace Program

def closedRoot (root : Element) : Log.Record :=
  ⟨.trace, "xpl::parser::xml", "closed root element", [("root", root.name)]⟩

def parsedTag (v : Visit) : Log.Record :=
  ⟨.debug, "xpl::parser::tree", "parsed tag",
    [("tag", v.name), ("start", toString v.span.start)]⟩

def parsedProgram (p : Program) : Log.Record :=
  ⟨.debug, "xpl::parser", "parsed program", [("tag", p.root.tag.name)]⟩

def journal (text : String) : List Log.Record :=
  let (built, _) := Markup.build text
  built.root.toList.map closedRoot ++
    (match Markup.parseDocument text with
      | .ok root => (Visit.classified root).map parsedTag
      | .error _ => []) ++
    match parse text 0 with
    | .ok p => [parsedProgram p]
    | .error _ => []

end Program

end XmlPipeline
