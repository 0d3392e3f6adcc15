set_option autoImplicit false

namespace XmlPipeline.Diagnostic

inductive Style where
  | severity
  | message
  /-- Borders, line numbers and bullets. -/
  | frame
  | label
  deriving DecidableEq, Repr

structure Ink where
  style : Option Style
  text : String
  deriving DecidableEq, Repr

def Ink.plain (text : String) : Ink := ⟨none, text⟩

def Ink.styled (style : Style) (text : String) : Ink := ⟨some style, text⟩

def Style.escape : Style → String
  | .severity => "\x1b[1m\x1b[38;5;9m"
  | .message => "\x1b[1m"
  | .frame => "\x1b[36m"
  | .label => "\x1b[31m"

/-- The severity is always followed by a message, whose style takes its place. -/
def Style.closing : Style → String
  | .severity => ""
  | .message | .frame | .label => "\x1b[0m"

def Ink.render (colored : Bool) (ink : Ink) : String :=
  match ink.style with
  | some style =>
    if colored then "\x1b[0m" ++ style.escape ++ ink.text ++ style.closing else ink.text
  | none => ink.text

def Ink.gather : List (Bool × String) → List Ink
  | [] => []
  | (marked, text) :: rest =>
    let style := if marked then some Style.label else none
    match gather rest with
    | [] => [⟨style, text⟩]
    | ink :: inks => if ink.style = style then ⟨style, text ++ ink.text⟩ :: inks
      else ⟨style, text⟩ :: ink :: inks

end XmlPipeline.Diagnostic
