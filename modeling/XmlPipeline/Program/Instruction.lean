import XmlPipeline.Markup.Span
import XmlPipeline.Program.Tag
set_option autoImplicit false

namespace XmlPipeline
open Markup (Span)

inductive Instruction where
  | block (scope : Scope) (span : Span) (body : List Instruction)
  | act (action : Action) (span : Span) (payload : String)
  deriving Repr

namespace Instruction

def tag : Instruction → Tag
  | .block scope _ _ => .scope scope
  | .act action _ _ => .action action

def span : Instruction → Span
  | .block _ span _ | .act _ span _ => span

def children : Instruction → List Instruction
  | .block _ _ body => body
  | .act .. => []

def payload? : Instruction → Option String
  | .block .. => none
  | .act _ _ payload => some payload

def at? (i : Instruction) : List Nat → Option Instruction
  | [] => some i
  | n :: path => i.children[n]?.bind (·.at? path)

mutual

/-- All instructions of a tree in document order, each with its depth. -/
def preorderFrom (depth : Nat) : Instruction → List (Nat × Instruction)
  | .block scope span body => (depth, .block scope span body) :: preorderAll (depth + 1) body
  | .act action span payload => [(depth, .act action span payload)]

def preorderAll (depth : Nat) : List Instruction → List (Nat × Instruction)
  | [] => []
  | i :: rest => preorderFrom depth i ++ preorderAll depth rest

end

def preorder (i : Instruction) : List (Nat × Instruction) := preorderFrom 0 i

end Instruction

/-- A program, and the number of the source it was read from. -/
structure Program where
  root : Instruction
  source : Nat
  deriving Repr

end XmlPipeline
