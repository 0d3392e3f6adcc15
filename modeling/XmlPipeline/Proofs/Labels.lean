import XmlPipeline.Proofs.Discovery
import XmlPipeline.Proofs.Selection
import XmlPipeline.Suite.Report
set_option autoImplicit false

/-!
Labels: the names under which categories are offered. Main statement: a category that is asked for
by its label is selected, unless it is that of the root, or the first of its folders begins with a
backslash and not all of its folders consist of backslashes.
-/

namespace XmlPipeline.Suite
open Files (Below Disk Entry IsName IsTree Listing Storage)

section Requests

variable {name core : String}

theorem Under.head?_eq (h : Under core name) (notEmpty : core ≠ "") :
    name.toList.head? = core.toList.head? := by
  rcases (under_iff_begins core name).1 h with rfl | ⟨rest, hrest⟩
  · rfl
  · have hcore : core.toList ≠ [] := fun hnil => notEmpty (String.toList_inj.1 hnil)
    rw [← hrest, List.append_assoc, List.head?_append_of_ne_nil _ hcore]

theorem requestName_eq_empty_iff : requestName name = "" ↔ ∀ c ∈ name.toList, c = '/' := by
  obtain ⟨⟨before, after, hname, hbefore, hafter⟩, hstarts, _⟩ := bare_requestName name
  simp only [List.all_eq_true, decide_eq_true_eq] at hbefore hafter
  rw [hname]
  constructor
  · intro hempty c hc
    simp only [hempty, String.toList_empty, List.append_nil, List.mem_append] at hc
    exact hc.elim (hbefore c) (hafter c)
  · intro hslashes
    cases hcore : (requestName name).toList with
    | nil => exact String.toList_inj.1 hcore
    | cons c cs =>
      have hc : c = '/' := hslashes c (by simp [hcore])
      simp [hcore, hc] at hstarts

theorem under_requestName_of_head? (h : name.toList.head? ≠ some '/') :
    Under (requestName name) name := by
  obtain ⟨⟨before, after, hname, hbefore, hafter⟩, _⟩ := bare_requestName name
  simp only [List.all_eq_true, decide_eq_true_eq] at hbefore hafter
  rw [under_iff_begins]
  cases before with
  | cons b bs => simp [hname, hbefore b] at h
  | nil =>
    rw [List.nil_append] at hname
    cases after with
    | nil => exact .inl (String.toList_inj.1 (by simpa using hname))
    | cons c cs =>
      refine .inr ⟨cs, ?_⟩
      rw [hname, hafter c List.mem_cons_self, List.append_assoc, List.singleton_append]

/-- A name is in the subtree that it asks for, unless slashes that it begins with are lost. -/
theorem under_requestName_iff : Under (requestName name) name ↔
    (name.toList.head? = some '/' → ∀ c ∈ name.toList, c = '/') := by
  by_cases hslash : name.toList.head? = some '/'
  · rw [← requestName_eq_empty_iff]
    constructor
    · intro hunder _
      by_contra hcore
      rw [hunder.head?_eq hcore] at hslash
      exact (bare_requestName name).starts hslash
    · intro hempty
      rw [hempty hslash, under_empty_iff]
      exact .inr hslash
  · simp [hslash, under_requestName_of_head? hslash]

/-- No category has the label that the root's one is offered under, unless a folder is named so. -/
theorem mem_select_label_iff {all : List Category} {c : Category} (h : c ∈ all) :
    c ∈ select all [c.label] ↔
      c.name ≠ "" ∧ (c.name.toList.head? = some '/' → ∀ d ∈ c.name.toList, d = '/') := by
  rw [select_of_ne_nil all (List.cons_ne_nil _ _), List.mem_filter, List.any_cons, List.any_nil,
    Bool.or_false, matchesRequest_iff, Category.label]
  split
  · next hempty =>
    have hroot : requestName "(root)" = "(root)" := by decide
    rw [hempty, hroot, under_iff_begins]
    simp
  · next hname => simp [h, hname, under_requestName_iff]

end Requests

section Folders

def slashed (c : Char) : Char := if c = '\\' then '/' else c

theorem slashed_eq_slash_iff {c : Char} (h : c ≠ '/') : slashed c = '/' ↔ c = '\\' := by
  unfold slashed
  split <;> simp [*]

theorem toList_categoryName (folders : List String) :
    (categoryName folders).toList = ("/".intercalate folders).toList.map slashed :=
  String.toList_ofList

theorem toList_categoryName_cons (first : String) (rest : List String) :
    (categoryName (first :: rest)).toList =
      first.toList.map slashed ++ rest.flatMap fun folder => '/' :: folder.toList.map slashed := by
  induction rest generalizing first with
  | nil => simp [toList_categoryName]
  | cons second rest ih =>
    rw [toList_categoryName, String.intercalate_cons_cons, String.toList_append,
      String.toList_append, List.map_append, List.map_append, ← toList_categoryName, ih,
      List.flatMap_cons, List.append_assoc]
    rfl

/-- The folders whose category is not selected by its label: none at all, or some of which the
first begins with a backslash, if there are not only backslashes. -/
def OutOfReach : List String → Prop
  | [] => True
  | first :: rest => first.toList.head? = some '\\' ∧
      ¬ ∀ folder ∈ first :: rest, ∀ c ∈ folder.toList, c = '\\'

variable {first : String} {rest : List String} (names : ∀ folder ∈ first :: rest, IsName folder)
include names

theorem categoryName_cons_ne_empty : categoryName (first :: rest) ≠ "" := by
  have hfirst : first.toList ≠ [] := (names first List.mem_cons_self).toList_ne.1
  rw [Ne, ← String.toList_inj, toList_categoryName_cons]
  simp [hfirst]

/-- No name holds a slash, so that those of a category are backslashes or stand between names. -/
theorem slashed_eq_slash_iff_of_mem {folder : String} (h : folder ∈ first :: rest) {c : Char}
    (hc : c ∈ folder.toList) : slashed c = '/' ↔ c = '\\' :=
  slashed_eq_slash_iff fun he => (names folder h).noSlash (he ▸ hc)

theorem head?_categoryName_cons : (categoryName (first :: rest)).toList.head? = some '/' ↔
    first.toList.head? = some '\\' := by
  have hfirst : first.toList ≠ [] := (names first List.mem_cons_self).toList_ne.1
  rw [toList_categoryName_cons, List.head?_append_of_ne_nil _ (by simpa using hfirst),
    List.head?_map]
  cases hchars : first.toList with
  | nil => exact absurd hchars hfirst
  | cons c cs =>
    have hc : c ∈ first.toList := hchars ▸ List.mem_cons_self
    simpa using slashed_eq_slash_iff_of_mem names List.mem_cons_self hc

theorem forall_mem_categoryName_cons : (∀ c ∈ (categoryName (first :: rest)).toList, c = '/') ↔
    ∀ folder ∈ first :: rest, ∀ c ∈ folder.toList, c = '\\' := by
  have hfolder : ∀ folder ∈ first :: rest,
      (∀ c ∈ folder.toList.map slashed, c = '/') ↔ ∀ c ∈ folder.toList, c = '\\' := by
    intro folder h
    rw [List.forall_mem_map]
    exact forall₂_congr fun c hc => slashed_eq_slash_iff_of_mem names h hc
  rw [toList_categoryName_cons, List.forall_mem_append, List.forall_mem_cons,
    hfolder first List.mem_cons_self]
  refine and_congr_right fun _ => ?_
  simp only [List.forall_mem_flatMap, List.forall_mem_cons, true_and]
  exact forall₂_congr fun folder h => hfolder folder (List.mem_cons_of_mem first h)

end Folders

theorem mem_select_label_iff_not_outOfReach {all : List Category} {c : Category} (h : c ∈ all)
    {folders : List String} (names : ∀ folder ∈ folders, IsName folder)
    (hname : categoryName folders = c.name) : c ∈ select all [c.label] ↔ ¬ OutOfReach folders := by
  rw [mem_select_label_iff h, ← hname]
  cases folders with
  | nil => simp [OutOfReach, categoryName]
  | cons first rest =>
    rw [OutOfReach, head?_categoryName_cons names, forall_mem_categoryName_cons names,
      not_and_not_right]
    exact and_iff_right (categoryName_cons_ne_empty names)

/-- What the list of categories shows, and what is available according to a warning, are the labels
of the categories. -/
structure ShowsLabels (storage : Storage) (root : String) : Prop where
  listed : storage.isFile root = false → discover storage root ≠ [] →
    listCategories storage root = .line "available categories:" ::
      (discover storage root).map fun c =>
        .line ("  " ++ c.label ++ " (" ++ toString c.paths.length ++ " tests)")
  warned : ∀ requests, ∀ record ∈ selectionJournal (discover storage root) requests,
    ("available", ", ".intercalate ((discover storage root).map (·.label))) ∈ record.fields

theorem showsLabels (storage : Storage) (root : String) : ShowsLabels storage root where
  listed notFile found := by
    rw [listCategories, notFile]
    cases h : discover storage root with
    | nil => exact absurd h found
    | cons c cs => rfl
  warned requests record h := by
    obtain ⟨request, _, rfl⟩ := List.mem_map.1 h
    exact List.mem_cons_of_mem _ List.mem_cons_self

section Found

variable {opens : String → Bool} {root : String} {entries : Listing} {categories : List Category}

theorem IsTest.isName {folders : List String} {file : String}
    (h : IsTest opens root entries folders file) (tree : IsTree entries) :
    ∀ folder ∈ folders, IsName folder := by
  obtain ⟨entry, hbelow, _⟩ := h
  exact fun folder hfolder => hbelow.isName tree folder (List.mem_append_left [file] hfolder)

theorem Finds.exists_category (h : Finds opens root entries categories) {folders : List String}
    {file : String} (test : IsTest opens root entries folders file) :
    ∃ c ∈ categories, c.name = categoryName folders := by
  obtain ⟨c, hc, hname, _⟩ := (h.tests _ _).2 ⟨folders, file, test, rfl, rfl⟩
  exact ⟨c, hc, hname⟩

theorem Finds.exists_test (h : Finds opens root entries categories) {c : Category}
    (hc : c ∈ categories) :
    ∃ folders file, IsTest opens root entries folders file ∧ categoryName folders = c.name := by
  obtain ⟨path, hpath⟩ := List.exists_mem_of_ne_nil _ (h.filled c hc)
  obtain ⟨folders, file, htest, hname, _⟩ := (h.tests c.name path).1 ⟨c, hc, rfl, hpath⟩
  exact ⟨folders, file, htest, hname⟩

theorem finds_discover_of_listed {storage : Storage} (listed : storage.folder? root = some entries)
    (tree : IsTree entries) : Finds fits root entries (discover storage root) := by
  rw [discover, listed]
  exact finds_categorize root tree

end Found

/-- Categories are offered by their labels, and the label of each selects it, unless the folders of
its tests are out of reach. -/
theorem labels_select {storage : Storage} {root : String} {entries : Listing}
    (listed : storage.folder? root = some entries) (tree : IsTree entries) :
    ShowsLabels storage root ∧
    ∀ c ∈ discover storage root,
      (∃ folders file, IsTest fits root entries folders file ∧ categoryName folders = c.name) ∧
      ∀ folders file, IsTest fits root entries folders file → categoryName folders = c.name →
        (c ∈ select (discover storage root) [c.label] ↔ ¬ OutOfReach folders) := by
  have hfinds := finds_discover_of_listed listed tree
  refine ⟨showsLabels storage root, fun c hc =>
    ⟨hfinds.exists_test hc, fun folders file htest hname => ?_⟩⟩
  exact mem_select_label_iff_not_outOfReach hc (htest.isName tree) hname

def offeredTree : Listing :=
  [("a", .folder [("x.test.xml", .file [])]), ("\\b", .folder [("x.test.xml", .file [])]),
    ("x.test.xml", .file [])]

def diskWithOfferedTree : Disk := { top := [("", .folder offeredTree)] }

theorem isTree_offeredTree : IsTree offeredTree := by
  have hinner : IsTree [("x.test.xml", .file [])] :=
    .file _ _ ⟨by decide, by decide, by decide, by decide⟩ (by simp) .nil
  exact .folder _ ⟨by decide, by decide, by decide, by decide⟩ (by simp) hinner
    (.folder _ ⟨by decide, by decide, by decide, by decide⟩ (by simp) hinner hinner)

theorem folder?_offeredTree : diskWithOfferedTree.storage.folder? "." = some offeredTree := rfl

theorem finds_offeredTree :
    Finds fits "." offeredTree (discover diskWithOfferedTree.storage ".") :=
  finds_discover_of_listed folder?_offeredTree isTree_offeredTree

theorem isTest_offeredTree : IsTest fits "." offeredTree [] "x.test.xml" ∧
    IsTest fits "." offeredTree ["a"] "x.test.xml" ∧
    IsTest fits "." offeredTree ["\\b"] "x.test.xml" := by
  have hfile (folder : String) : IsTest fits folder [("x.test.xml", .file [])] [] "x.test.xml" :=
    isTest_file_iff.2 ⟨rfl, rfl, by decide⟩
  have hfolder (name : String) (h : fits (Files.join "." name) = true) :
      IsTest fits "." [(name, .folder [("x.test.xml", .file [])])] [name] "x.test.xml" :=
    isTest_folder_iff.2 (.inr ⟨h, [], rfl, hfile _⟩)
  simp only [offeredTree, isTest_cons_iff _ (_ :: _)]
  exact ⟨.inr (.inr (hfile ".")), .inl (hfolder "a" (by decide)),
    .inr (.inl (hfolder "\\b" (by decide)))⟩

theorem labels_select_offeredTree :
    diskWithOfferedTree.storage.folder? "." = some offeredTree ∧ IsTree offeredTree ∧
    ShowsLabels diskWithOfferedTree.storage "." ∧
    ∃ c ∈ discover diskWithOfferedTree.storage ".", c.label = "a" ∧
      c ∈ select (discover diskWithOfferedTree.storage ".") ["a"] := by
  obtain ⟨hshows, hselects⟩ := labels_select folder?_offeredTree isTree_offeredTree
  obtain ⟨c, hc, hname⟩ := finds_offeredTree.exists_category isTest_offeredTree.2.1
  have hlabel : c.label = "a" := by
    rw [Category.label, hname]
    decide
  have hselected := (hselects c hc).2 _ _ isTest_offeredTree.2.1 hname.symm
  rw [hlabel] at hselected
  exact ⟨folder?_offeredTree, isTree_offeredTree, hshows, c, hc, hlabel,
    hselected.2 (by simp [OutOfReach])⟩

/-- Neither the root nor a folder whose name begins with a backslash is selected by its label. -/
theorem labels_not_selected_offeredTree :
    diskWithOfferedTree.storage.folder? "." = some offeredTree ∧ IsTree offeredTree ∧
    (∃ c ∈ discover diskWithOfferedTree.storage ".", c.label = "(root)" ∧
      c ∉ select (discover diskWithOfferedTree.storage ".") ["(root)"]) ∧
    ∃ c ∈ discover diskWithOfferedTree.storage ".", c.label = "/b" ∧
      c ∉ select (discover diskWithOfferedTree.storage ".") ["/b"] := by
  have hunselected {folders : List String} {label : String}
      (htest : IsTest fits "." offeredTree folders "x.test.xml") (hout : OutOfReach folders)
      (hlabel : ∀ c : Category, c.name = categoryName folders → c.label = label) :
      ∃ c ∈ discover diskWithOfferedTree.storage ".",
        c.label = label ∧ c ∉ select (discover diskWithOfferedTree.storage ".") [label] := by
    obtain ⟨c, hc, hname⟩ := finds_offeredTree.exists_category htest
    have hnames := htest.isName isTree_offeredTree
    have hselect := mem_select_label_iff_not_outOfReach hc hnames hname.symm
    rw [hlabel c hname] at hselect
    exact ⟨c, hc, hlabel c hname, fun hselected => hselect.1 hselected hout⟩
  refine ⟨folder?_offeredTree, isTree_offeredTree,
    hunselected isTest_offeredTree.1 trivial ?_,
    hunselected isTest_offeredTree.2.2 (by simp [OutOfReach]) ?_⟩
  all_goals
    intro c hname
    rw [Category.label, hname]
    decide

end XmlPipeline.Suite
