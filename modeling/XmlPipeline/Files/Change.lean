import XmlPipeline.Files.Disk
set_option autoImplicit false

/-!
Changes to a disk. What cannot be done is left undone, and nothing tells of it.
-/

namespace XmlPipeline.Files

def climb (entries : Listing) : List (String × Listing) → Listing
  | [] => entries
  | (name, outer) :: above => climb (putEntry name (.folder entries) outer) above

namespace Place

def stepMaking (piece : List Char) (place : Place) : Except ReadFault Place :=
  match place, place.step piece with
  | .folder entries above, .error .notFound =>
    .ok (.folder [] ((String.ofList piece, entries) :: above))
  | _, result => result

def descend : List (List Char) → Place → Place
  | [], place => place
  | piece :: rest, place =>
    match place.stepMaking piece with
    | .ok (.file _) | .error _ => place
    | .ok next => descend rest next

end Place

namespace Disk

def endsInDot (path : String) : Bool :=
  ((pieces path.toList).reverse.dropWhile (· = [])).head? = some ['.']

/-- Makes the folders on a path. A folder that is followed by a dot at the end is not made. -/
def makeFolders (disk : Disk) (path : String) : Disk :=
  let made := if endsInDot path then (parent? path).getD "" else path
  if (pathFault? path).isSome then disk
  else
    match (disk.start path).descend (pieces made.toList) with
    | .folder entries above => ⟨climb entries above⟩
    | _ => disk

def changeAt (disk : Disk) (path : String) (change : String → Listing → Option Listing) : Disk :=
  let ps := pieces path.toList
  let name := ps.getLast?.getD []
  if (pathFault? path).isSome ∨ isIdle name ∨ name = ['.', '.'] ∨ maxName < Text.size name then disk
  else
    match ps.dropLast.foldlM (fun place piece => place.step piece) (disk.start path) with
    | .ok (.folder entries above) =>
      ((change (String.ofList name) entries).map fun entries => ⟨climb entries above⟩).getD disk
    | _ => disk

def write (disk : Disk) (path : String) (content : List UInt8) : Disk :=
  let disk := ((parent? path).map disk.makeFolders).getD disk
  disk.changeAt path fun name entries =>
    match Entry.find? name entries with
    | some (.folder _) => none
    | _ => some (putEntry name (.file content) entries)

def remove (disk : Disk) (path : String) : Disk :=
  disk.changeAt path fun name entries =>
    match Entry.find? name entries with
    | some (.file _) => some (entries.filter (·.1 ≠ name))
    | _ => none

end Disk

end XmlPipeline.Files
