set_option autoImplicit false

namespace XmlPipeline.CommandLine

inductive Topic where
  | program
  | run
  | test
  | help
  deriving DecidableEq, Repr

inductive Misuse where
  | unknownArgument
  | surplusValue
  | badValue
  | repeated
  | missingOperand
  | unknownCommand
  | missingCommand
  | noArguments
  deriving DecidableEq, Repr

inductive Stop where
  | help (topic : Topic)
  | version
  | misuse (cause : Misuse)
  deriving DecidableEq, Repr

inductive Use where
  | flag
  /-- Takes one value, which may be empty or not. -/
  | single (mayBeEmpty : Bool)
  | many
  | help (topic : Topic)
  | version
  deriving DecidableEq, Repr

structure Opt where
  long : String
  short : Option Char := none
  use : Use
  deriving DecidableEq, Repr

structure Given where
  flags : List String := []
  values : List (String × String) := []
  operand : Option String := none
  /-- An option that takes a value and is not settled yet, and its value once that is given. -/
  pending : Option (Opt × Option String) := none
  deriving Repr

namespace Given

def misuse {α : Type} (cause : Misuse) : Except Stop α := .error (.misuse cause)

def valuesOf (g : Given) (name : String) : List String :=
  (g.values.filter (·.1 = name)).map (·.2)

def store (g : Given) (opt : Opt) (value : String) : Except Stop Given :=
  let stored := { g with values := g.values ++ [(opt.long, value)] }
  match opt.use with
  | .single mayBeEmpty =>
    if g.valuesOf opt.long ≠ [] then misuse .repeated
    else if value = "" ∧ !mayBeEmpty then misuse .badValue
    else .ok stored
  | _ => .ok stored

def settle (g : Given) : Except Stop Given :=
  match g.pending with
  | none => .ok g
  | some (_, none) => misuse .badValue
  | some (opt, some value) => { g with pending := none }.store opt value

def apply (g : Given) (opt : Opt) : Except Stop Given :=
  g.settle.bind fun g =>
    match opt.use with
    | .help topic => .error (.help topic)
    | .version => .error .version
    | _ =>
      if opt.long ∈ g.flags then misuse .repeated
      else .ok { g with flags := opt.long :: g.flags }

def takesValue (opt : Opt) : Bool :=
  match opt.use with
  | .single _ | .many => true
  | _ => false

def await (g : Given) (opt : Opt) (attached : Option String) : Except Stop Given :=
  g.settle.bind fun g =>
    match attached with
    | some value => g.store opt value
    | none => .ok { g with pending := some (opt, none) }

def long (opts : List Opt) (g : Given) (text : List Char) : Except Stop Given :=
  let name := text.takeWhile (· ≠ '=')
  let attached := if name.length = text.length then none
    else some (String.ofList (text.drop (name.length + 1)))
  match opts.find? (·.long = String.ofList name) with
  | none => misuse .unknownArgument
  | some opt =>
    if takesValue opt then g.await opt attached
    else if attached.isSome then misuse .surplusValue
    else g.apply opt

def shorts (opts : List Opt) (g : Given) : List Char → Except Stop Given
  | [] => .ok g
  | c :: cs =>
    match opts.find? (·.short = some c) with
    | none => misuse .unknownArgument
    | some opt =>
      if takesValue opt then
        g.await opt (match cs with
          | [] => none
          | '=' :: value => some (String.ofList value)
          | value => some (String.ofList value))
      else (g.apply opt).bind fun g => shorts opts g cs

def option? (opts : List Opt) (g : Given) (arg : String) : Option (Except Stop Given) :=
  match arg.toList with
  | '-' :: '-' :: c :: cs => some (long opts g (c :: cs))
  | '-' :: c :: cs => some (shorts opts g (c :: cs))
  | _ => none

def setOperand (g : Given) (arg : String) : Except Stop Given :=
  if g.operand.isSome then misuse .unknownArgument
  else g.settle.map fun g => { g with operand := some arg }

def operands (g : Given) : List String → Except Stop Given
  | [] => g.settle
  | arg :: rest => (g.setOperand arg).bind fun g => operands g rest

/-- Reads the arguments of a command with one operand. After two hyphens come operands only. -/
def read (opts : List Opt) (g : Given) : List String → Except Stop Given
  | [] => g.settle
  | arg :: rest =>
    if arg = "--" then operands g rest
    else
      match option? opts g arg, g.pending with
      | some result, _ => result.bind fun g => read opts g rest
      | none, some (opt, none) => read opts { g with pending := some (opt, some arg) } rest
      | none, _ => (g.setOperand arg).bind fun g => read opts g rest

end Given

end XmlPipeline.CommandLine
