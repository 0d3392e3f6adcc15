import XmlPipeline.Proofs.Categories
import XmlPipeline.Proofs.Trees
set_option autoImplicit false

/-!
Discovery: which files are found below a folder. Main statement: each entry below it that is no
folder and has the ending of a test is found once, in the category of its folder, in whatever order
the folders are listed. A folder counts as one if its path is not too long.
-/

namespace XmlPipeline.Suite
open Files (Below Disk Entry IsTree Listing Rearranged Storage join joinAll)

/-- The paths by which the system can be asked for something. -/
def fits (path : String) : Bool := !Files.isTooLong path

/-- The path of a folder below the root, with a slash for each backslash. -/
def categoryName (folders : List String) : String :=
  String.ofList (("/".intercalate folders).toList.map fun c => if c = '\\' then '/' else c)

/-- A test is no folder and has the ending of a test. It is known by the folders that lead to it and
its name. -/
def IsTest (opens : String → Bool) (root : String) (entries : Listing) (folders : List String)
    (name : String) : Prop :=
  ∃ entry, Below opens root entries folders name entry ∧
    entry.TakenForFile opens (joinAll root (folders ++ [name])) ∧ isTestName name = true

/-- The categories that a tree has if those folders are entered whose paths `opens` holds of. -/
structure Finds (opens : String → Bool) (root : String) (entries : Listing)
    (categories : List Category) : Prop where
  ordered : (categories.map (·.name)).Pairwise fun a b => Text.bytes a.toList < Text.bytes b.toList
  filled : ∀ c ∈ categories, c.paths ≠ []
  sorted : ∀ c ∈ categories, c.paths.Pairwise Files.PathBefore
  once : (categories.flatMap (·.paths)).Nodup
  tests : ∀ name path, (∃ c ∈ categories, c.name = name ∧ path ∈ c.paths) ↔
    ∃ folders file, IsTest opens root entries folders file ∧ categoryName folders = name ∧
      joinAll root (folders ++ [file]) = path
  entered : ∀ folders name inner, Below opens root entries folders name (.folder inner) →
    opens (joinAll root (folders ++ [name])) = true →
    ∀ c ∈ categories, joinAll root (folders ++ [name]) ∉ c.paths

section Found

variable {folder : String} {folders : List String} {f : Found}

theorem mem_foundFile_iff {file : String} :
    f ∈ foundFile folder folders file ↔
      ∃ steps name, (steps = [] ∧ name = file ∧ isTestName name = true) ∧
        f = ⟨folders ++ steps, name, joinAll folder (steps ++ [name])⟩ := by
  unfold foundFile
  split
  · next h =>
    rw [List.mem_singleton]
    constructor
    · rintro rfl
      exact ⟨[], file, ⟨rfl, rfl, h⟩, by simp [joinAll]⟩
    · rintro ⟨steps, name, ⟨rfl, rfl, -⟩, rfl⟩
      simp [joinAll]
  · next h =>
    simp only [List.not_mem_nil, false_iff]
    rintro ⟨steps, name, ⟨-, rfl, htest⟩, -⟩
    exact h htest

theorem foundIn_cons (first : String × Entry) (rest : Listing) :
    foundIn folder folders (first :: rest) =
      foundIn folder folders [first] ++ foundIn folder folders rest := by
  simp [foundIn]

theorem foundIn_file (name : String) (content : List UInt8) :
    foundIn folder folders [(name, .file content)] = foundFile folder folders name := by
  simp [foundIn, foundAt]

theorem foundIn_folder (name : String) (inner : Listing) :
    foundIn folder folders [(name, .folder inner)] =
      if fits (join folder name) then foundIn (join folder name) (folders ++ [name]) inner
      else foundFile folder folders name := by
  cases h : Files.isTooLong (join folder name) <;> simp [foundIn, foundAt, fits, h]

theorem isTest_cons_iff {opens : String → Bool} {steps : List String} {name : String}
    (first : String × Entry) (rest : Listing) :
    IsTest opens folder (first :: rest) steps name ↔
      IsTest opens folder [first] steps name ∨ IsTest opens folder rest steps name := by
  unfold IsTest
  rw [← exists_or]
  refine exists_congr fun entry => ?_
  rw [Below.cons_iff, or_and_right]

theorem isTest_file_iff {opens : String → Bool} {steps : List String} {name file : String}
    {content : List UInt8} :
    IsTest opens folder [(file, .file content)] steps name ↔
      steps = [] ∧ name = file ∧ isTestName name = true := by
  simp only [IsTest, Below.file_iff]
  constructor
  · rintro ⟨entry, ⟨hsteps, hname, -⟩, -, htest⟩
    exact ⟨hsteps, hname, htest⟩
  · rintro ⟨hsteps, hname, htest⟩
    exact ⟨_, ⟨hsteps, hname, rfl⟩, trivial, htest⟩

theorem isTest_folder_iff {opens : String → Bool} {steps : List String} {name step : String}
    {inner : Listing} :
    IsTest opens folder [(step, .folder inner)] steps name ↔
      (opens (join folder step) = false ∧ steps = [] ∧ name = step ∧ isTestName name = true) ∨
      (opens (join folder step) = true ∧ ∃ later, steps = step :: later ∧
        IsTest opens (join folder step) inner later name) := by
  simp only [IsTest, Below.folder_iff]
  constructor
  · rintro ⟨entry, ⟨rfl, rfl, rfl⟩ | ⟨later, rfl, hopened, hbelow⟩, htaken, htest⟩
    · exact .inl ⟨htaken, rfl, rfl, htest⟩
    · exact .inr ⟨hopened, later, rfl, entry, hbelow, htaken, htest⟩
  · rintro (⟨hclosed, rfl, rfl, htest⟩ | ⟨hopened, later, rfl, entry, hbelow, htaken, htest⟩)
    · exact ⟨_, .inl ⟨rfl, rfl, rfl⟩, hclosed, htest⟩
    · exact ⟨entry, .inr ⟨later, rfl, hopened, hbelow⟩, htaken, htest⟩

theorem mem_foundIn_iff {entries : Listing} (tree : IsTree entries) :
    f ∈ foundIn folder folders entries ↔
      ∃ steps name, IsTest fits folder entries steps name ∧
        f = ⟨folders ++ steps, name, joinAll folder (steps ++ [name])⟩ := by
  induction tree generalizing folder folders with
  | nil =>
    simp only [foundIn, List.not_mem_nil, false_iff]
    rintro ⟨steps, name, ⟨entry, hbelow, -⟩, -⟩
    obtain ⟨first, hfirst, -⟩ := hbelow.exists_mem_head
    cases hfirst
  | @file rest name content _ _ _ ih =>
    rw [foundIn_cons, List.mem_append, ih]
    simp only [isTest_cons_iff _ rest, or_and_right, exists_or]
    refine or_congr ?_ Iff.rfl
    simp only [foundIn_file, isTest_file_iff, mem_foundFile_iff]
  | @folder inner rest name _ _ _ _ ihBelow ih =>
    rw [foundIn_cons, List.mem_append, ih]
    simp only [isTest_cons_iff _ rest, or_and_right, exists_or]
    refine or_congr ?_ Iff.rfl
    rw [foundIn_folder]
    simp only [isTest_folder_iff]
    cases hfits : fits (join folder name) with
    | false =>
      simp only [Bool.false_eq_true, ↓reduceIte, mem_foundFile_iff, false_and, or_false, true_and]
    | true =>
      simp only [↓reduceIte, ihBelow, Bool.true_eq_false, false_and, false_or, true_and]
      constructor
      · rintro ⟨later, file, htest, rfl⟩
        exact ⟨name :: later, file, ⟨later, rfl, htest⟩, by simp⟩
      · rintro ⟨steps, file, ⟨later, rfl, htest⟩, rfl⟩
        exact ⟨later, file, htest, by simp⟩

theorem ne_of_mem_foundIn {first : String × Entry} {rest : Listing} (alone : IsTree [first])
    (fresh : ∀ entry ∈ rest, entry.1 ≠ first.1) (later : IsTree rest) (f : Found)
    (hf : f ∈ foundIn folder folders [first]) (g : Found)
    (hg : g ∈ foundIn folder folders rest) : f ≠ g := by
  obtain ⟨steps, name, ⟨_, hbelow, -⟩, rfl⟩ := (mem_foundIn_iff alone).1 hf
  obtain ⟨steps', name', ⟨_, hbelow', -⟩, rfl⟩ := (mem_foundIn_iff later).1 hg
  obtain ⟨e, he, hhead⟩ := hbelow.exists_mem_head
  obtain ⟨e', he', hhead'⟩ := hbelow'.exists_mem_head
  rw [List.mem_singleton] at he
  subst he
  intro same
  simp only [Found.mk.injEq, List.append_cancel_left_eq] at same
  rw [same.1, same.2.1, hhead'] at hhead
  exact fresh e' he' (Option.some.inj hhead)

theorem nodup_foundFile (name : String) : (foundFile folder folders name).Nodup := by
  unfold foundFile
  split <;> simp

theorem nodup_foundIn {entries : Listing} (tree : IsTree entries) :
    (foundIn folder folders entries).Nodup := by
  induction tree generalizing folder folders with
  | nil => simp [foundIn]
  | file name content isName fresh tree ih =>
    have alone : IsTree [(name, .file content)] := .file name content isName (by simp) .nil
    rw [foundIn_cons, List.nodup_append]
    refine ⟨?_, ih, ne_of_mem_foundIn alone fresh tree⟩
    rw [foundIn_file]
    exact nodup_foundFile name
  | @folder inner rest name isName fresh below tree ihBelow ih =>
    have alone : IsTree [(name, .folder inner)] := .folder name isName (by simp) below .nil
    rw [foundIn_cons, List.nodup_append]
    refine ⟨?_, ih, ne_of_mem_foundIn alone fresh tree⟩
    rw [foundIn_folder]
    split
    · exact ihBelow
    · exact nodup_foundFile name

theorem perm_foundIn {entries others : Listing} (h : Rearranged entries others) :
    (foundIn folder folders entries).Perm (foundIn folder folders others) := by
  induction h generalizing folder folders with
  | nil => exact .refl _
  | @keep rest rest' entry _ ih =>
    rw [foundIn_cons entry rest, foundIn_cons entry rest']
    exact ih.append_left _
  | @inside inner inner' rest rest' name _ _ ihBelow ih =>
    rw [foundIn_cons _ rest, foundIn_cons _ rest', foundIn_folder, foundIn_folder]
    refine List.Perm.append ?_ ih
    split
    · exact ihBelow
    · exact .refl _
  | swap a b rest =>
    rw [foundIn_cons a (b :: rest), foundIn_cons b rest, foundIn_cons b (a :: rest),
      foundIn_cons a rest, ← List.append_assoc, ← List.append_assoc]
    exact List.perm_append_comm.append_right _
  | trans _ _ ih ih' => exact ih.trans ih'

end Found

theorem placed_foundIn (root : String) {entries : Listing} (tree : IsTree entries) :
    Placed root (foundIn root [] entries) where
  path f hf := by
    obtain ⟨steps, name, -, rfl⟩ := (mem_foundIn_iff tree).1 hf
    rfl
  isName f hf := by
    obtain ⟨steps, name, ⟨entry, hbelow, -⟩, rfl⟩ := (mem_foundIn_iff tree).1 hf
    exact hbelow.isName tree
  nodup := nodup_foundIn tree

/-- A folder has no path of a test, since no other entry has its path. -/
theorem not_isTest_of_opens {opens : String → Bool} {root : String} {entries inner : Listing}
    {folders steps : List String} {name file : String} (tree : IsTree entries)
    (below : Below opens root entries folders name (.folder inner))
    (opened : opens (joinAll root (folders ++ [name])) = true)
    (same : joinAll root (steps ++ [file]) = joinAll root (folders ++ [name])) :
    ¬ IsTest opens root entries steps file := by
  rintro ⟨entry, hbelow, htaken, -⟩
  have hnames := Files.joinAll_inj (hbelow.isName tree) (below.isName tree) same
  rw [List.append_singleton_inj] at hnames
  obtain ⟨rfl, rfl⟩ := hnames
  rw [hbelow.unique tree below] at htaken
  rw [Entry.TakenForFile, opened] at htaken
  cases htaken

theorem finds_categorize (root : String) {entries : Listing} (tree : IsTree entries) :
    Finds fits root entries (categorize (foundIn root [] entries)) := by
  have hplaced := placed_foundIn root tree
  have htests : ∀ name path,
      (∃ c ∈ categorize (foundIn root [] entries), c.name = name ∧ path ∈ c.paths) ↔
      ∃ folders file, IsTest fits root entries folders file ∧ categoryName folders = name ∧
        joinAll root (folders ++ [file]) = path := by
    intro name path
    rw [mem_categorize_iff]
    constructor
    · rintro ⟨f, hf, hname, hpath⟩
      obtain ⟨folders, file, htest, rfl⟩ := (mem_foundIn_iff tree).1 hf
      exact ⟨folders, file, htest, hname, hpath⟩
    · rintro ⟨folders, file, htest, hname, hpath⟩
      exact ⟨⟨folders, file, _⟩, (mem_foundIn_iff tree).2 ⟨folders, file, htest, rfl⟩, hname, hpath⟩
  refine ⟨?_, fun c hc => paths_ne_nil hc, ?_, hplaced.nodup_paths, htests, ?_⟩
  · have hnames : (categorize (foundIn root [] entries)).map (·.name) =
        categoryNames (foundIn root [] entries) := by
      rw [categorize_eq, List.map_map]
      exact List.map_id _
    rw [hnames]
    exact (pairwise_categoryNames _).imp fun {a b} h => (Text.bytes_lt_bytes_iff a b).2 h
  · intro c hc
    rw [categorize_eq, List.mem_map] at hc
    obtain ⟨name, -, rfl⟩ := hc
    exact hplaced.pairwise_filesOf name
  · intro folders name inner hbelow hopened c hc hpath
    obtain ⟨steps, file, htest, -, hsame⟩ := (htests c.name _).1 ⟨c, hc, rfl, hpath⟩
    exact not_isTest_of_opens tree hbelow hopened hsame htest

theorem isTree_listed {storage : Storage} {root : String}
    (trees : ∀ entries, storage.folder? root = some entries → IsTree entries) :
    IsTree ((storage.folder? root).getD []) := by
  cases h : storage.folder? root with
  | none => exact .nil
  | some entries => exact trees entries h

theorem finds_discover {storage : Storage} {root : String}
    (trees : ∀ entries, storage.folder? root = some entries → IsTree entries) :
    Finds fits root ((storage.folder? root).getD []) (discover storage root) :=
  finds_categorize root (isTree_listed trees)

def AllFit (root : String) (entries : Listing) : Prop :=
  ∀ folders name inner, Below (fun _ => true) root entries folders name (.folder inner) →
    fits (joinAll root (folders ++ [name])) = true

theorem AllFit.isTest_iff {root : String} {entries : Listing} (h : AllFit root entries)
    (folders : List String) (name : String) :
    IsTest fits root entries folders name ↔ IsTest (fun _ => true) root entries folders name := by
  constructor
  · rintro ⟨entry, hbelow, htaken, htest⟩
    have hbelow' : Below (fun _ => true) root entries folders name entry :=
      hbelow.of_imp fun _ _ => rfl
    refine ⟨entry, hbelow', ?_, htest⟩
    cases entry with
    | file content => trivial
    | folder inner =>
      rw [Entry.TakenForFile, h folders name inner hbelow'] at htaken
      cases htaken
  · rintro ⟨entry, hbelow, htaken, htest⟩
    refine ⟨entry, hbelow.of_all h, ?_, htest⟩
    cases entry with
    | file content => trivial
    | folder inner => cases htaken

theorem AllFit.finds {root : String} {entries : Listing} {categories : List Category}
    (h : AllFit root entries) (found : Finds fits root entries categories) :
    Finds (fun _ => true) root entries categories where
  ordered := found.ordered
  filled := found.filled
  sorted := found.sorted
  once := found.once
  tests name path := by
    simp only [found.tests, h.isTest_iff]
  entered folders name inner below _ := by
    exact found.entered folders name inner (below.of_all h) (h folders name inner below)

/-- The tests below a folder are found, each once, in the categories of their folders and in order,
and the order of the listings does not show. No folder is taken for a test unless its path is too
long. -/
theorem discover_finds {storage other : Storage} {root : String} {entries others : Listing}
    (listed : storage.folder? root = some entries) (listed' : other.folder? root = some others)
    (tree : IsTree entries) (order : Rearranged entries others) :
    Finds fits root entries (discover storage root) ∧
    discover other root = discover storage root ∧
    (AllFit root entries → Finds (fun _ => true) root entries (discover storage root)) := by
  have htrees : ∀ found, storage.folder? root = some found → IsTree found := by
    intro found hfound
    rw [listed, Option.some.injEq] at hfound
    rwa [← hfound]
  have hfound : Finds fits root entries (discover storage root) := by
    have hfinds := finds_discover htrees
    rwa [listed] at hfinds
  refine ⟨hfound, ?_, fun h => h.finds hfound⟩
  rw [discover, discover, listed, listed']
  exact ((placed_foundIn root tree).categorize_eq_of_perm (perm_foundIn order)).symm

def smallTree : Listing :=
  [("a", .folder [("x.test.xml", .file []), ("n.txt", .file [])]), ("y.test.xml", .file [])]

def smallTreeReversed : Listing :=
  [("y.test.xml", .file []), ("a", .folder [("n.txt", .file []), ("x.test.xml", .file [])])]

theorem isTree_smallTree : IsTree smallTree := by
  have hinner : IsTree [("x.test.xml", .file []), ("n.txt", .file [])] :=
    .file _ _ ⟨by decide, by decide, by decide, by decide⟩ (by simp)
      (.file _ _ ⟨by decide, by decide, by decide, by decide⟩ (by simp) .nil)
  exact .folder _ ⟨by decide, by decide, by decide, by decide⟩ (by simp) hinner
    (.file _ _ ⟨by decide, by decide, by decide, by decide⟩ (by simp) .nil)

theorem rearranged_smallTree : Rearranged smallTree smallTreeReversed :=
  .trans (.inside "a" (.swap _ _ []) (.refl _)) (.swap _ _ [])

theorem discover_finds_smallTree :
    (Disk.mk [("", .folder smallTree)]).storage.folder? "." = some smallTree ∧
    (Disk.mk [("", .folder smallTreeReversed)]).storage.folder? "." = some smallTreeReversed ∧
    IsTree smallTree ∧ Rearranged smallTree smallTreeReversed ∧
    Finds fits "." smallTree (discover (Disk.mk [("", .folder smallTree)]).storage ".") ∧
    discover (Disk.mk [("", .folder smallTreeReversed)]).storage "." =
      discover (Disk.mk [("", .folder smallTree)]).storage "." := by
  have hlisted : (Disk.mk [("", .folder smallTree)]).storage.folder? "." = some smallTree := rfl
  have hlisted' : (Disk.mk [("", .folder smallTreeReversed)]).storage.folder? "." =
      some smallTreeReversed := rfl
  obtain ⟨hfinds, hsame, -⟩ :=
    discover_finds hlisted hlisted' isTree_smallTree rearranged_smallTree
  exact ⟨hlisted, hlisted', isTree_smallTree, rearranged_smallTree, hfinds, hsame⟩

end XmlPipeline.Suite

namespace XmlPipeline.Files

theorem folder?_storage (disk : Disk) (path : String) :
    disk.storage.folder? path = disk.folder? path := rfl

/-- A path of so many steps that lead nowhere. -/
def idlePath (steps : Nat) : String := String.ofList (List.replicate steps ['.', '/']).flatten

theorem toList_idlePath (steps : Nat) :
    (idlePath steps).toList = (List.replicate steps ['.', '/']).flatten :=
  String.toList_ofList

theorem size_idlePath (steps : Nat) : Text.size (idlePath steps).toList = 2 * steps := by
  rw [toList_idlePath]
  induction steps with
  | zero => rfl
  | succ steps ih =>
    rw [List.replicate_succ, List.flatten_cons, Text.size_append, ih]
    have hstep : Text.size ['.', '/'] = 2 := rfl
    omega

theorem isIdle_of_mem_pieces_idlePath {steps : Nat} {piece : List Char}
    (h : piece ∈ pieces (idlePath steps).toList) : isIdle piece = true := by
  rw [toList_idlePath] at h
  induction steps with
  | zero =>
    rw [List.replicate_zero, List.flatten_nil, pieces, List.mem_singleton] at h
    rw [h]
    rfl
  | succ steps ih =>
    have hsplit : pieces (List.replicate (steps + 1) ['.', '/']).flatten =
        pieces ['.'] ++ pieces (List.replicate steps ['.', '/']).flatten :=
      pieces_append_slash ['.'] _
    rw [hsplit, List.mem_append] at h
    rcases h with h | h
    · have hdot : pieces ['.'] = [['.']] := rfl
      rw [hdot, List.mem_singleton] at h
      rw [h]
      rfl
    · exact ih h

theorem foldlM_idle {entries : Listing} {above : List (String × Listing)} {ps : List (List Char)}
    (h : ∀ piece ∈ ps, isIdle piece = true) :
    ps.foldlM (fun place piece => Place.step piece place) (.folder entries above) =
      .ok (.folder entries above) := by
  induction ps with
  | nil => rfl
  | cons piece ps ih =>
    have hstep : Place.step piece (.folder entries above) = .ok (.folder entries above) := by
      simp [Place.step, h piece List.mem_cons_self]
    rw [List.foldlM_cons, hstep]
    exact ih fun p hp => h p (List.mem_cons_of_mem piece hp)

theorem folder?_idlePath {disk : Disk} {entries : Listing} {above : List (String × Listing)}
    (working : disk.working = .folder entries above) {steps : Nat} (positive : 0 < steps)
    (short : 2 * steps ≤ maxPath) : disk.folder? (idlePath steps) = some entries := by
  have hlist : (idlePath steps).toList = '.' :: '/' ::
      (List.replicate (steps - 1) ['.', '/']).flatten := by
    rw [toList_idlePath, ← Nat.sub_add_cancel positive, List.replicate_succ]
    rfl
  have hfault : Disk.pathFault? (idlePath steps) = none := by
    have hnul : '\x00' ∉ (idlePath steps).toList := by
      rw [toList_idlePath]
      simp
    have hne : idlePath steps ≠ "" := by
      intro h
      rw [h] at hlist
      cases hlist
    rw [Disk.pathFault?, if_neg hnul, if_neg hne, if_neg]
    rw [isTooLong, size_idlePath]
    simpa using short
  have hstart : disk.start (idlePath steps) = disk.working := by
    rw [Disk.start, isAbsolute, hlist]
    rfl
  have hlocate : disk.locate (idlePath steps) = .ok (.folder entries above) := by
    rw [Disk.locate, hfault, hstart, working]
    exact foldlM_idle fun _ => isIdle_of_mem_pieces_idlePath
  rw [Disk.folder?, hlocate]

end XmlPipeline.Files

namespace XmlPipeline.Suite
open Files (Below Disk Entry IsName IsTree Listing Rearranged Storage idlePath join joinAll)

theorem not_fits_join_idlePath {steps : Nat} {name : String} (isName : IsName name)
    (long : Files.maxPath < 2 * steps + Text.size name.toList) :
    fits (join (idlePath steps) name) = false := by
  have hsize : 2 * steps + Text.size name.toList ≤
      Text.size (join (idlePath steps) name).toList := by
    rw [Files.toList_join isName.isAbsolute, Text.size_append, Text.size_append,
      Files.size_idlePath]
    omega
  rw [fits, Files.isTooLong, Bool.not_eq_false', decide_eq_true_eq]
  omega

def folderNamedAsTest : Listing := [("d.test.xml", .folder [])]

def diskWithFolderNamedAsTest : Disk := { top := [("", .folder folderNamedAsTest)] }

theorem folder?_diskWithFolderNamedAsTest :
    diskWithFolderNamedAsTest.folder? (idlePath 2045) = some folderNamedAsTest := by
  have hworking : diskWithFolderNamedAsTest.working =
      .folder folderNamedAsTest [("", diskWithFolderNamedAsTest.top)] := rfl
  exact Files.folder?_idlePath hworking (by decide) (by decide)

/-- From a folder with a long path, a folder below it is taken for a file. -/
theorem not_finds_of_long_path :
    diskWithFolderNamedAsTest.storage.folder? (idlePath 2045) = some folderNamedAsTest ∧
    IsTree folderNamedAsTest ∧
    ¬ Finds (fun _ => true) (idlePath 2045) folderNamedAsTest
      (discover diskWithFolderNamedAsTest.storage (idlePath 2045)) := by
  have hname : IsName "d.test.xml" := ⟨by decide, by decide, by decide, by decide⟩
  have hlisted : diskWithFolderNamedAsTest.storage.folder? (idlePath 2045) =
      some folderNamedAsTest := by
    rw [Files.folder?_storage]
    exact folder?_diskWithFolderNamedAsTest
  have htree : IsTree folderNamedAsTest := .folder _ hname (by simp) .nil .nil
  refine ⟨hlisted, htree, fun hclaimed => ?_⟩
  have hbelow {opens : String → Bool} :
      Below opens (idlePath 2045) folderNamedAsTest [] "d.test.xml" (.folder []) :=
    .here List.mem_cons_self
  have hclosed : fits (join (idlePath 2045) "d.test.xml") = false :=
    not_fits_join_idlePath hname (by decide)
  have htest : IsTest fits (idlePath 2045) folderNamedAsTest [] "d.test.xml" :=
    isTest_folder_iff.2 (.inl ⟨hclosed, rfl, rfl, by decide⟩)
  rw [discover, hlisted] at hclaimed
  obtain ⟨c, hc, -, hpath⟩ := ((finds_categorize (idlePath 2045) htree).tests _ _).2
    ⟨[], "d.test.xml", htest, rfl, rfl⟩
  exact hclaimed.entered [] "d.test.xml" [] hbelow rfl c hc hpath

end XmlPipeline.Suite
