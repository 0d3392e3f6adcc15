import XmlPipeline.Files.Fault
import XmlPipeline.Files.Path
set_option autoImplicit false

namespace XmlPipeline.Files

inductive Entry where
  | file (content : List UInt8)
  | folder (entries : List (String × Entry))

abbrev Listing := List (String × Entry)

def Entry.find? (name : String) (entries : Listing) : Option Entry :=
  (entries.find? (·.1 = name)).map (·.2)

def putEntry (name : String) (entry : Entry) : Listing → Listing
  | [] => [(name, entry)]
  | (n, e) :: rest => if n = name then (n, entry) :: rest else (n, e) :: putEntry name entry rest

/-- What a path can lead to. A folder knows the folders above it, nearest first, and the name under
which each of them holds the one below. -/
inductive Place where
  | file (content : List UInt8)
  | folder (entries : Listing) (above : List (String × Listing))
  /-- A folder beyond the disk. It holds nothing. -/
  | outside

def maxName : Nat := 255
def maxPath : Nat := 4095

def isTooLong (path : String) : Bool := maxPath < Text.size path.toList

namespace Place

/-- Takes one piece of a path. From a file no piece leads anywhere, not even an idle one. -/
def step (piece : List Char) : Place → Except ReadFault Place
  | .file _ => .error .notAFolder
  | .outside =>
    if isIdle piece ∨ piece = ['.', '.'] then .ok .outside
    else if maxName < Text.size piece then .error .nameTooLong
    else .error .notFound
  | .folder entries above =>
    if isIdle piece then .ok (.folder entries above)
    else if piece = ['.', '.'] then
      match above with
      | [] => .ok .outside
      | (name, outer) :: above => .ok (.folder (putEntry name (.folder entries) outer) above)
    else if maxName < Text.size piece then .error .nameTooLong
    else
      match Entry.find? (String.ofList piece) entries with
      | none => .error .notFound
      | some (.file content) => .ok (.file content)
      | some (.folder inner) => .ok (.folder inner ((String.ofList piece, entries) :: above))

end Place

/-- The working folder stands under the empty name, by which no path can reach it. -/
structure Disk where
  top : Listing := [("", .folder [])]

namespace Disk

def working (disk : Disk) : Place :=
  match Entry.find? "" disk.top with
  | some (.folder entries) => .folder entries [("", disk.top)]
  | _ => .outside

def pathFault? (path : String) : Option ReadFault :=
  if '\x00' ∈ path.toList then some .nulInName
  else if path = "" then some .notFound
  else if isTooLong path then some .nameTooLong
  else none

def start (disk : Disk) (path : String) : Place :=
  if isAbsolute path then .outside else disk.working

def locate (disk : Disk) (path : String) : Except ReadFault Place :=
  match pathFault? path with
  | some fault => .error fault
  | none => (pieces path.toList).foldlM (fun place piece => place.step piece) (disk.start path)

def read (disk : Disk) (path : String) : Except ReadFault String :=
  match disk.locate path with
  | .error fault => .error fault
  | .ok (.file content) =>
    match Text.decode? content with
    | some text => .ok text
    | none => .error .notUtf8
  | .ok _ => .error .isAFolder

def isFile (disk : Disk) (path : String) : Bool :=
  match disk.locate path with
  | .ok (.file _) => true
  | _ => false

def folder? (disk : Disk) (path : String) : Option Listing :=
  match disk.locate path with
  | .ok (.folder entries _) => some entries
  | .ok .outside => some []
  | _ => none

end Disk

structure Storage where
  read : String → Except ReadFault String
  isFile : String → Bool
  folder? : String → Option Listing

def Disk.storage (disk : Disk) : Storage := ⟨disk.read, disk.isFile, disk.folder?⟩

end XmlPipeline.Files
