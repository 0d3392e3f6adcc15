set_option autoImplicit false

namespace XmlPipeline.Log

inductive Level where
  | error
  | warn
  | info
  | debug
  | trace
  deriving DecidableEq, Repr

def Level.name : Level → String
  | .error => "ERROR"
  | .warn => "WARN"
  | .info => "INFO"
  | .debug => "DEBUG"
  | .trace => "TRACE"

def Level.verbosity : Level → Nat
  | .error => 1
  | .warn => 2
  | .info => 3
  | .debug => 4
  | .trace => 5

structure Record where
  level : Level
  target : String
  message : String
  fields : List (String × String)
  deriving DecidableEq, Repr

def Level.escape : Level → String
  | .error => "\x1b[31m"
  | .warn => "\x1b[33m"
  | .info => "\x1b[32m"
  | .debug => "\x1b[34m"
  | .trace => "\x1b[35m"

def Level.padded (l : Level) : String := if l.name.length < 5 then " " ++ l.name else l.name

def paint (colored : Bool) (escape text : String) : String :=
  if colored then escape ++ text ++ "\x1b[0m" else text

def Record.renderField (colored : Bool) (field : String × String) : String :=
  " " ++ paint colored "\x1b[3m" field.1 ++ paint colored "\x1b[2m" "=" ++ field.2

def Record.render (colored : Bool) (time : String) (r : Record) : String :=
  paint colored "\x1b[2m" time ++ " " ++ paint colored r.level.escape r.level.padded ++ " " ++
    r.message ++ String.join (r.fields.map (Record.renderField colored))

end XmlPipeline.Log
