set_option autoImplicit false

namespace XmlPipeline.CommandLine

def commandNames : List String := ["run", "test", "help"]

def valueOptions : List String := ["--base-dir", "-c", "--category"]

def firstOperand? : List String → Option String
  | [] => none
  | [arg] =>
    if arg ∈ valueOptions then none
    else if arg.toList.head? = some '-' then none
    else some arg
  | arg :: next :: rest =>
    if arg ∈ valueOptions then firstOperand? rest
    else if arg.toList.head? = some '-' then firstOperand? (next :: rest)
    else some arg

/-- Adds the command that runs a program, unless the first operand is a command. The program's own
name comes first. -/
def expandShorthand : List String → List String
  | [] => []
  | name :: args =>
    match firstOperand? args with
    | some word => if word ∈ commandNames then name :: args else name :: "run" :: args
    | none => name :: args

end XmlPipeline.CommandLine
