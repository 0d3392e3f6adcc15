import XmlPipeline.Suite.Case
set_option autoImplicit false

namespace XmlPipeline.Suite
open Files (Entry Listing Storage)

/-- A test file: the names of the folders that lead to it, then its own; and its path. -/
structure Found where
  folders : List String
  name : String
  path : String
  deriving DecidableEq, Repr

def isTestName (name : String) : Bool := testEnding.toList.isSuffixOf name.toList

def foundFile (folder : String) (folders : List String) (name : String) : List Found :=
  if isTestName name then [⟨folders, name, Files.join folder name⟩] else []

mutual

def foundIn (folder : String) (folders : List String) : Listing → List Found
  | [] => []
  | entry :: rest => foundAt folder folders entry ++ foundIn folder folders rest

/-- A folder whose path is too long cannot be told from a file. -/
def foundAt (folder : String) (folders : List String) : String × Entry → List Found
  | (name, .file _) => foundFile folder folders name
  | (name, .folder entries) =>
    if Files.isTooLong (Files.join folder name) then foundFile folder folders name
    else foundIn (Files.join folder name) (folders ++ [name]) entries

end

/-- A category is named by the folders below the root; a backslash in a name counts as a slash. -/
def Found.category (f : Found) : String :=
  String.ofList (("/".intercalate f.folders).toList.map fun c => if c = '\\' then '/' else c)

def namesLe : List String → List String → Bool
  | [], _ => true
  | _ :: _, [] => false
  | a :: as, b :: bs => if a = b then namesLe as bs else a < b

def Found.le (a b : Found) : Bool := namesLe (a.folders ++ [a.name]) (b.folders ++ [b.name])

structure Category where
  name : String
  paths : List String
  deriving DecidableEq, Repr

def distinct : List String → List String
  | [] => []
  | a :: as => if a ∈ as then distinct as else a :: distinct as

/-- The categories in order of their names, each with its files in order of their paths. -/
def categorize (found : List Found) : List Category :=
  let sorted := found.mergeSort Found.le
  let names := (distinct (found.map Found.category)).mergeSort (fun a b => decide (a ≤ b))
  names.map fun name => ⟨name, (sorted.filter (·.category = name)).map (·.path)⟩

def discover (storage : Storage) (root : String) : List Category :=
  categorize (foundIn root [] ((storage.folder? root).getD []))

end XmlPipeline.Suite
