import XmlPipeline.Files.Fault
import XmlPipeline.Markup.Document
import XmlPipeline.Program.Tag
set_option autoImplicit false

namespace XmlPipeline
open Markup (Span)

inductive Program.Fault where
  | unreadable (path : String) (fault : Files.ReadFault)
  | markup (fault : Markup.Fault)
  | unknownTag (name : String)
  | emptyPipeline
  | actionWithChildren (parent : Action) (child : String)
  deriving DecidableEq, Repr

namespace Program.Fault

def message : Fault → String
  | .unreadable path fault => "cannot read '" ++ path ++ "': " ++ fault.message
  | .markup fault => fault.message
  | .unknownTag name => "unknown tag <" ++ name ++ ">"
  | .emptyPipeline => "<pipeline> must contain at least one instruction"
  | .actionWithChildren parent child =>
    "<" ++ parent.name ++ "> takes text only, found <" ++ child ++ "> inside it"

def notes : Fault → List String
  | .markup .noRoot => ["the document has no root element"]
  | .unknownTag _ => ["expected one of: " ++ ", ".intercalate (Tag.all.map Tag.name)]
  | _ => []

end Program.Fault

structure ParseError where
  cause : Program.Fault
  span : Span
  source : Nat
  deriving DecidableEq, Repr

namespace ParseError

def message (e : ParseError) : String := e.cause.message

def notes (e : ParseError) : List String := e.cause.notes

def label? (e : ParseError) : Option Span :=
  match e.cause with
  | .unreadable .. => none
  | _ => some e.span

end ParseError

end XmlPipeline
