import XmlPipeline.CommandLine.Command
import XmlPipeline.Run.Inputs
import XmlPipeline.Suite.Discovery
set_option autoImplicit false

/-!
Inputs of commands: the files whose text a command can ask for. Which files a program reads is
known only once the program itself has been read.
-/

namespace XmlPipeline.CommandLine
open Files (Storage)

def programInputs (base source : String) : List String :=
  match Program.parse source 0 with
  | .ok program => Run.inputs base program.root
  | .error _ => []

def runInputs (storage : Storage) (o : RunOptions) : List String :=
  match storage.read o.file with
  | .ok source => programInputs o.baseDir source
  | .error _ => []

def testFiles (storage : Storage) (path : String) : List String :=
  if storage.isFile path then [path] else (Suite.discover storage path).flatMap (·.paths)

def testInputs (storage : Storage) (path : String) : List String :=
  match (storage.read path).toOption.bind fun content => (Suite.readTestFile content).toOption with
  | some (_, source) => programInputs (Suite.testFolder path) source
  | none => []

def Command.sources (storage : Storage) : Command → List String
  | .run o => [o.file]
  | .test o => testFiles storage o.path

def Command.inputs (storage : Storage) : Command → List String
  | .run o => runInputs storage o
  | .test o => (testFiles storage o.path).flatMap (testInputs storage)

end XmlPipeline.CommandLine
