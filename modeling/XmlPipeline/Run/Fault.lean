import XmlPipeline.Files.Fault
import XmlPipeline.Markup.Span
import XmlPipeline.Run.Sink
set_option autoImplicit false

namespace XmlPipeline.Run
open Markup (Span)

inductive Fault where
  | typeMismatch (expected got : String)
  | unreadable (path : String) (fault : Files.ReadFault)
  | output (fault : OutputFault)
  deriving DecidableEq, Repr

def Fault.message : Fault → String
  | .typeMismatch expected got => "type error: expected " ++ expected ++ ", got " ++ got
  | .unreadable path fault => "cannot read file '" ++ path ++ "': " ++ fault.message
  | .output fault => "cannot write output: " ++ fault.message

/-- A failure of the whole run, and not of one instruction, has no span. -/
structure RunError where
  cause : Fault
  span? : Option Span
  source : Nat
  deriving DecidableEq, Repr

def RunError.message (e : RunError) : String := e.cause.message

end XmlPipeline.Run
