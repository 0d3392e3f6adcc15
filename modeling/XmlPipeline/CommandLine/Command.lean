import XmlPipeline.CommandLine.Options
set_option autoImplicit false

namespace XmlPipeline.CommandLine

structure RunOptions where
  file : String
  check : Bool
  ast : Bool
  tree : Bool
  quiet : Bool
  baseDir : String
  noColor : Bool
  deriving DecidableEq, Repr

structure TestOptions where
  path : String
  categories : List String
  listCategories : Bool
  noColor : Bool
  deriving DecidableEq, Repr

inductive Command where
  | run (options : RunOptions)
  | test (options : TestOptions)
  deriving DecidableEq, Repr

def noColorOption : Opt := { long := "no-color", use := .flag }

def helpOption (topic : Topic) : Opt := { long := "help", short := some 'h', use := .help topic }

def programOptions : List Opt :=
  [noColorOption, helpOption .program, { long := "version", short := some 'V', use := .version }]

def runOptions : List Opt :=
  [noColorOption, helpOption .run, { long := "check", use := .flag },
    { long := "ast", use := .flag }, { long := "tree", use := .flag },
    { long := "quiet", short := some 'q', use := .flag },
    { long := "base-dir", use := .single false }]

def testOptions : List Opt :=
  [noColorOption, helpOption .test, { long := "category", short := some 'c', use := .many },
    { long := "list-categories", use := .flag }]

def readRun (noColor : Bool) (args : List String) : Except Stop Command :=
  (Given.read runOptions {} args).bind fun g =>
    match g.operand with
    | none => .error (.misuse .missingOperand)
    | some file => .ok (.run
        { file, check := "check" ∈ g.flags, ast := "ast" ∈ g.flags, tree := "tree" ∈ g.flags,
          quiet := "quiet" ∈ g.flags, baseDir := (g.valuesOf "base-dir").headD ".",
          noColor := noColor || "no-color" ∈ g.flags })

def readTest (noColor : Bool) (args : List String) : Except Stop Command :=
  (Given.read testOptions {} args).bind fun g =>
    match g.operand with
    | none => .error (.misuse .missingOperand)
    | some path => .ok (.test
        { path, categories := g.valuesOf "category",
          listCategories := "list-categories" ∈ g.flags,
          noColor := noColor || "no-color" ∈ g.flags })

def helpTopic : List String → Stop
  | [] => .help .program
  | ["run"] => .help .run
  | ["test"] => .help .test
  | ["help"] => .help .help
  | _ => .misuse .unknownCommand

def missingCommand (noColor : Bool) : Stop :=
  .misuse (if noColor then .missingCommand else .noArguments)

def readProgram (g : Given) : List String → Except Stop Command
  | [] => .error (missingCommand ("no-color" ∈ g.flags))
  | arg :: rest =>
    if arg = "run" then readRun ("no-color" ∈ g.flags) rest
    else if arg = "test" then readTest ("no-color" ∈ g.flags) rest
    else if arg = "help" then .error (helpTopic rest)
    else if arg = "--" then
      match rest with
      | [] => .error (missingCommand ("no-color" ∈ g.flags))
      | word :: _ =>
        .error (.misuse
          (if word ∈ ["run", "test", "help"] then .unknownArgument else .unknownCommand))
    else
      match g.option? programOptions arg with
      | some result => result.bind fun g => readProgram g rest
      | none => .error (.misuse .unknownCommand)

/-- Reads all arguments. The program's own name comes first. -/
def readArguments (args : List String) : Except Stop Command := readProgram {} (args.drop 1)

end XmlPipeline.CommandLine
