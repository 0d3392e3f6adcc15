import Std.Time.Format
import XmlPipeline.CommandLine.Inputs
import XmlPipeline.CommandLine.Invocation
set_option autoImplicit false

/-!
The command line: what a command needs of the files is read first, and then what it does is
computed and written.
-/

namespace XmlPipeline.CommandLine
open Files (Entry Listing ReadFault Storage)

def codeOf : IO.Error → Nat
  | .alreadyExists _ code _ | .otherError code _ | .resourceBusy code _
  | .resourceVanished code _ | .unsupportedOperation code _ | .hardwareFault code _
  | .unsatisfiedConstraints code _ | .illegalOperation code _ | .protocolError code _
  | .timeExpired code _ | .interrupted _ code _ | .noFileOrDirectory _ code _
  | .invalidArgument _ code _ | .permissionDenied _ code _ | .resourceExhausted _ code _
  | .inappropriateType _ code _ | .noSuchThing _ code _ => code.toNat
  | .unexpectedEof | .userError _ => 0

/-- The number by which the system knows an error. Some calls report it negated. -/
def systemCode (error : IO.Error) : Nat :=
  let code := codeOf error
  if code < 0x80000000 then code else 0x100000000 - code

def readFault (error : IO.Error) : ReadFault :=
  match systemCode error with
  | 2 => .notFound
  | 20 => .notAFolder
  | 21 => .isAFolder
  | 36 => .nameTooLong
  | code => .other ("cannot be read (os error " ++ toString code ++ ")")

def textOf (path : String) : IO (Except ReadFault String) := do
  if '\x00' ∈ path.toList then return .error .nulInName
  try
    match String.fromUTF8? (← IO.FS.readBinFile path) with
    | some text => return .ok text
    | none => return .error .notUtf8
  catch error => return .error (readFault error)

def isFolder (path : String) : IO Bool := do
  try (← IO.FS.realPath path).isDir
  catch _ => return false

partial def listingOf (path : String) : IO Listing := do
  let names := (← (← IO.FS.realPath path).readDir).toList.map (·.fileName)
  names.mapM fun name => do
    let inner := Files.join path name
    if ← isFolder inner then return (name, Entry.folder (← listingOf inner))
    else return (name, Entry.file [])

structure Known where
  texts : List (String × Except ReadFault String) := []
  folder : Option (String × Listing) := none
  file : Option String := none

def Known.storage (known : Known) : Storage where
  read path := (known.texts.lookup path).getD (.error .notFound)
  isFile path := known.file = some path
  folder? path :=
    known.folder.bind fun (root, entries) => if root = path then some entries else none

def Known.add (known : Known) (paths : List String) : IO Known := do
  let texts ← paths.eraseDups.mapM fun path => do return (path, ← textOf path)
  return { known with texts := texts ++ known.texts }

def Known.ofPath (path : String) : IO Known := do
  try
    if ← (← IO.FS.realPath path).isDir then
      return { folder := some (path, ← listingOf path) }
    else return { file := some path }
  catch _ => return {}

def Known.ofCommand (command : Command) : IO Known := do
  let known ← match command with
    | .run _ => pure {}
    | .test o => Known.ofPath o.path
  let known ← known.add (command.sources known.storage)
  known.add (command.inputs known.storage)

def timeStamp : IO String := do
  let now ← Std.Time.Timestamp.now
  return (Std.Time.DateTime.ofTimestamp now .UTC).format "uuuu-MM-dd'T'HH:mm:ss.SSSSSS'Z'"

def writeOutput (bytes : List UInt8) : IO Bool := do
  let out ← IO.getStdout
  try
    out.write (ByteArray.mk bytes.toArray)
    out.flush
    return true
  catch _ => return false

end XmlPipeline.CommandLine

open XmlPipeline.CommandLine in
def main (args : List String) : IO UInt32 := do
  let args := "xpl" :: args
  let known ← match readArguments (expandShorthand args) with
    | .ok command => Known.ofCommand command
    | .error _ => pure {}
  let world : World :=
    { storage := known.storage
      environment :=
        { logSetting := ← IO.getEnv "XPL_LOG"
          terminal := ← IO.getEnv "TERM"
          noColor := ← IO.getEnv "NO_COLOR"
          forceColor := ← IO.getEnv "CLICOLOR_FORCE" }
      outputFull := false }
  let effect := invoke world args
  let effect ← if ← writeOutput effect.output then pure effect
    else pure (invoke { world with outputFull := true } args)
  (← IO.getStderr).putStr (errorText (← timeStamp) effect)
  return effect.status.code.toUInt32
