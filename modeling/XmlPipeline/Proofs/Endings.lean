import XmlPipeline.Proofs.Labels
import XmlPipeline.Proofs.Verdict
set_option autoImplicit false

/-!
Endings: a test that is not described is called by its file, without the ending of a test. Main
statement: its label with the ending behind it is the name of the file, unless the name has the
ending twice; and tests have the same label if their names differ in endings only.
-/

namespace XmlPipeline.Text

inductive Extends (ending core : List Char) : List Char → Prop where
  | none : Extends ending core core
  | more {cs : List Char} (h : Extends ending core cs) : Extends ending core (cs ++ ending)

/-- Two texts that differ at most in how often they have an ending. -/
def SameButForEndings (ending a b : List Char) : Prop :=
  ∃ core, Extends ending core a ∧ Extends ending core b

section Ending

variable {ending : List Char}

theorem dropEnding_eq_self {cs : List Char} (h : ¬ ending <:+ cs) : dropEnding ending cs = cs := by
  rw [dropEnding, dif_neg]
  rintro ⟨-, hsuffix⟩
  exact h (List.isSuffixOf_iff_suffix.1 hsuffix)

theorem dropEnding_append (notEmpty : ending ≠ []) (cs : List Char) :
    dropEnding ending (cs ++ ending) = dropEnding ending cs := by
  have hsuffix : ending.isSuffixOf (cs ++ ending) = true :=
    List.isSuffixOf_iff_suffix.2 (List.suffix_append cs ending)
  rw [dropEnding, dif_pos ⟨notEmpty, hsuffix⟩, List.length_append, Nat.add_sub_cancel,
    List.take_left]

theorem Extends.dropEnding_eq {core cs : List Char} (h : Extends ending core cs)
    (notEmpty : ending ≠ []) : dropEnding ending cs = dropEnding ending core := by
  induction h with
  | none => rfl
  | more _ ih => rw [dropEnding_append notEmpty, ih]

theorem extends_dropEnding (ending cs : List Char) : Extends ending (dropEnding ending cs) cs := by
  induction cs using dropEnding.induct ending with
  | case1 cs h ih =>
    obtain ⟨core, rfl⟩ := List.isSuffixOf_iff_suffix.1 h.2
    rw [List.length_append, Nat.add_sub_cancel, List.take_left] at ih
    rw [dropEnding_append h.1]
    exact .more ih
  | case2 cs h =>
    rw [dropEnding, dif_neg h]
    exact .none

theorem not_suffix_dropEnding (notEmpty : ending ≠ []) (cs : List Char) :
    ¬ ending <:+ dropEnding ending cs := by
  induction cs using dropEnding.induct ending with
  | case1 cs h ih =>
    rw [dropEnding, dif_pos h]
    exact ih
  | case2 cs h =>
    rw [dropEnding, dif_neg h]
    exact fun hsuffix => h ⟨notEmpty, List.isSuffixOf_iff_suffix.2 hsuffix⟩

/-- What is left is told by how the text comes from it, and by the ending that it does not have. -/
theorem dropEnding_eq_iff (notEmpty : ending ≠ []) {core cs : List Char} :
    dropEnding ending cs = core ↔ Extends ending core cs ∧ ¬ ending <:+ core := by
  constructor
  · rintro rfl
    exact ⟨extends_dropEnding ending cs, not_suffix_dropEnding notEmpty cs⟩
  · rintro ⟨hextends, hfree⟩
    rw [hextends.dropEnding_eq notEmpty, dropEnding_eq_self hfree]

theorem dropEnding_eq_self_iff (notEmpty : ending ≠ []) {cs : List Char} :
    dropEnding ending cs = cs ↔ ¬ ending <:+ cs := by
  rw [dropEnding_eq_iff notEmpty, and_iff_right .none]

theorem dropEnding_eq_dropEnding_iff (notEmpty : ending ≠ []) (a b : List Char) :
    dropEnding ending a = dropEnding ending b ↔ SameButForEndings ending a b := by
  constructor
  · intro h
    refine ⟨dropEnding ending a, extends_dropEnding ending a, ?_⟩
    rw [h]
    exact extends_dropEnding ending b
  · rintro ⟨core, ha, hb⟩
    rw [ha.dropEnding_eq notEmpty, hb.dropEnding_eq notEmpty]

end Ending

end XmlPipeline.Text

namespace XmlPipeline.Files

theorem dropIdleEnd_of_getLast? {ps : List (List Char)} {piece : List Char}
    (last : ps.getLast? = some piece) (notIdle : isIdle piece = false) : dropIdleEnd ps = ps := by
  obtain ⟨init, rfl⟩ := List.getLast?_eq_some_iff.1 last
  rw [dropIdleEnd, List.reverse_append, List.reverse_singleton, List.singleton_append,
    List.dropWhile_cons_of_neg (by simp [notIdle]), List.reverse_cons, List.reverse_reverse]

/-- Only the first piece can belong to what a path starts from, and it leads nowhere then. -/
theorem getLast?_anchor {cs piece : List Char} (last : (pieces cs).getLast? = some piece)
    (notIdle : isIdle piece = false) : (anchor cs).2.getLast? = some piece := by
  have hlater (first : List Char) (rest : List Char) :
      (first :: pieces rest).getLast? = (pieces rest).getLast? := by
    obtain ⟨p, ps, h⟩ := List.exists_cons_of_ne_nil (pieces_ne_nil rest)
    rw [h, List.getLast?_cons_cons]
  unfold anchor
  split
  · next rest =>
    have hpieces : pieces ('/' :: rest) = [] :: pieces rest := pieces_append_slash [] rest
    rwa [hpieces, hlater] at last
  · -- the only piece of a dot leads nowhere
    cases last
    cases notIdle
  · next rest =>
    have hpieces : pieces ('.' :: '/' :: rest) = ['.'] :: pieces rest :=
      pieces_append_slash ['.'] rest
    rw [hpieces, hlater] at last
    rwa [hlater]
  · exact last

theorem IsName.getLast?_pieces_join {name : String} (h : IsName name) (base : String) :
    (pieces (join base name).toList).getLast? = some name.toList := by
  rcases h.join_cases base with ⟨-, hjoin⟩ | ⟨start, -, hjoin⟩ | hjoin
  · rw [hjoin, h.pieces_toList, List.getLast?_singleton]
  · rw [hjoin, pieces_append_slash, h.pieces_toList, List.getLast?_concat]
  · rw [hjoin, pieces_append_slash, h.pieces_toList, List.getLast?_concat]

theorem IsName.fileName?_join {name : String} (h : IsName name) (base : String) :
    fileName? (join base name) = some name := by
  have hlast := getLast?_anchor (h.getLast?_pieces_join base) h.isIdle_toList
  rw [fileName?, dropIdleEnd_of_getLast? hlast h.isIdle_toList, hlast, Option.bind_some,
    if_neg h.toList_ne.2.2, String.ofList_toList]

end XmlPipeline.Files

namespace XmlPipeline.Suite
open Files (Disk IsName IsTree Listing Storage joinAll)

/-- A result of the test at a path, without a description. -/
structure Undescribed (result : TestResult) (path : String) : Prop where
  path : result.path = path
  description : result.description = none

def EndsTwice (name : String) : Prop := (testEnding ++ testEnding).toList <:+ name.toList

instance (name : String) : Decidable (EndsTwice name) :=
  inferInstanceAs (Decidable ((testEnding ++ testEnding).toList <:+ name.toList))

/-- What the labels of tests that are not described tell of their files. -/
structure ToldByLabel (root : String) (entries : Listing) (folders : List String) (file : String) :
    Prop where
  name : ∀ result, Undescribed result (joinAll root (folders ++ [file])) →
    (result.label ++ testEnding = file ↔ ¬ EndsTwice file)
  others : ∀ result, Undescribed result (joinAll root (folders ++ [file])) →
    ∀ steps other, IsTest fits root entries steps other →
    ∀ result', Undescribed result' (joinAll root (steps ++ [other])) →
    (result.label = result'.label ↔
      Text.SameButForEndings testEnding.toList file.toList other.toList)

theorem testEnding_ne_nil : testEnding.toList ≠ [] := by decide

theorem Undescribed.label_eq {result : TestResult} {root : String} {folders : List String}
    {file : String} (h : Undescribed result (joinAll root (folders ++ [file])))
    (isName : IsName file) :
    result.label = String.ofList (Text.dropEnding testEnding.toList file.toList) := by
  have hfile : Files.fileName? (joinAll root (folders ++ [file])) = some file := by
    rw [joinAll, List.foldl_append]
    exact isName.fileName?_join _
  rw [TestResult.label, h.description, h.path, hfile]

theorem undescribed_runTest {storage : Storage} {path : String}
    (h : (runTest storage path).1.description = none) : Undescribed (runTest storage path).1 path :=
  ⟨path_runTest storage path, h⟩

section Test

variable {opens : String → Bool} {root : String} {entries : Listing} {folders : List String}
  {file : String}

theorem IsTest.isName_file (h : IsTest opens root entries folders file) (tree : IsTree entries) :
    IsName file := by
  obtain ⟨entry, hbelow, -⟩ := h
  exact hbelow.isName tree file (List.mem_append_right folders List.mem_cons_self)

theorem IsTest.exists_stem (h : IsTest opens root entries folders file) :
    ∃ stem, file.toList = stem ++ testEnding.toList := by
  obtain ⟨entry, -, -, hname⟩ := h
  obtain ⟨stem, hstem⟩ := List.isSuffixOf_iff_suffix.1 hname
  exact ⟨stem, hstem.symm⟩

theorem IsTest.label_append_iff (h : IsTest opens root entries folders file) {label : String}
    (hlabel : label = String.ofList (Text.dropEnding testEnding.toList file.toList)) :
    label ++ testEnding = file ↔ ¬ EndsTwice file := by
  obtain ⟨stem, hstem⟩ := h.exists_stem
  have hchars : label.toList = Text.dropEnding testEnding.toList stem := by
    rw [hlabel, String.toList_ofList, hstem, Text.dropEnding_append testEnding_ne_nil]
  have htwice : EndsTwice file ↔ testEnding.toList <:+ stem := by
    rw [EndsTwice, hstem, String.toList_append, List.suffix_append_self_iff]
  rw [htwice, ← Text.dropEnding_eq_self_iff testEnding_ne_nil, ← String.toList_inj,
    String.toList_append, hchars, hstem, List.append_left_inj]

end Test

theorem Finds.exists_category_of_both {opens : String → Bool} {root : String} {entries : Listing}
    {categories : List Category} (h : Finds opens root entries categories) {folders : List String}
    {file other : String} (test : IsTest opens root entries folders file)
    (test' : IsTest opens root entries folders other) :
    ∃ c ∈ categories, c.name = categoryName folders ∧
      joinAll root (folders ++ [file]) ∈ c.paths ∧ joinAll root (folders ++ [other]) ∈ c.paths := by
  have hdistinct : (categories.map (·.name)).Nodup := by
    refine h.ordered.imp fun {a b} hlt he => ?_
    rw [he] at hlt
    exact List.lt_irrefl _ hlt
  obtain ⟨c, hc, hname, hpath⟩ := (h.tests _ _).2 ⟨folders, file, test, rfl, rfl⟩
  obtain ⟨c', hc', hname', hpath'⟩ := (h.tests _ _).2 ⟨folders, other, test', rfl, rfl⟩
  have hsame : c' = c := List.inj_on_of_nodup_map hdistinct hc' hc (hname'.trans hname.symm)
  exact ⟨c, hc, hname, hpath, hsame ▸ hpath'⟩

theorem IsTest.toldByLabel {root : String} {entries : Listing} {folders : List String}
    {file : String} (h : IsTest fits root entries folders file) (tree : IsTree entries) :
    ToldByLabel root entries folders file where
  name result undescribed := h.label_append_iff (undescribed.label_eq (h.isName_file tree))
  others result undescribed steps other test result' undescribed' := by
    rw [undescribed.label_eq (h.isName_file tree), undescribed'.label_eq (test.isName_file tree),
      String.ofList_inj, Text.dropEnding_eq_dropEnding_iff testEnding_ne_nil]

/-- A test that is not described is told by its label: that is the name of its file up to the
ending, unless the name has the ending twice, and other tests have the same label exactly if their
names differ in nothing but endings. -/
theorem labels_tell_tests {storage : Storage} {root : String} {entries : Listing}
    (listed : storage.folder? root = some entries) (tree : IsTree entries) :
    (∀ c ∈ discover storage root, ∀ path ∈ c.paths, ∃ folders file,
      IsTest fits root entries folders file ∧ categoryName folders = c.name ∧
      joinAll root (folders ++ [file]) = path) ∧
    ∀ folders file, IsTest fits root entries folders file →
      ToldByLabel root entries folders file := by
  have hfinds := finds_discover_of_listed listed tree
  constructor
  · intro c hc path hpath
    exact (hfinds.tests c.name path).1 ⟨c, hc, rfl, hpath⟩
  · intro folders file htest
    exact htest.toldByLabel tree

def endedTree : Listing :=
  [("a.test.xml", .file []), ("a.test.xml.test.xml", .file []), (".test.xml", .file [])]

def diskWithEndedTree : Disk := { top := [("", .folder endedTree)] }

theorem isTree_endedTree : IsTree endedTree :=
  .file _ _ ⟨by decide, by decide, by decide, by decide⟩ (by simp)
    (.file _ _ ⟨by decide, by decide, by decide, by decide⟩ (by simp)
      (.file _ _ ⟨by decide, by decide, by decide, by decide⟩ (by simp) .nil))

theorem folder?_endedTree : diskWithEndedTree.storage.folder? "." = some endedTree := rfl

theorem isTest_endedTree {file : String} (mem : (file, .file []) ∈ endedTree)
    (isTest : isTestName file = true) : IsTest fits "." endedTree [] file :=
  ⟨.file [], .here mem, trivial, isTest⟩

theorem undescribed_endedTree :
    Undescribed (runTest diskWithEndedTree.storage "./.test.xml").1 "./.test.xml" ∧
    Undescribed (runTest diskWithEndedTree.storage "./a.test.xml").1 "./a.test.xml" ∧
    Undescribed (runTest diskWithEndedTree.storage "./a.test.xml.test.xml").1
      "./a.test.xml.test.xml" :=
  ⟨undescribed_runTest rfl, undescribed_runTest rfl, undescribed_runTest rfl⟩

theorem labels_tell_tests_endedTree :
    diskWithEndedTree.storage.folder? "." = some endedTree ∧ IsTree endedTree ∧
    IsTest fits "." endedTree [] ".test.xml" ∧ IsTest fits "." endedTree [] "a.test.xml" ∧
    (runTest diskWithEndedTree.storage "./.test.xml").1.label ++ testEnding = ".test.xml" ∧
    (runTest diskWithEndedTree.storage "./a.test.xml").1.label ++ testEnding = "a.test.xml" ∧
    (runTest diskWithEndedTree.storage "./.test.xml").1.label ≠
      (runTest diskWithEndedTree.storage "./a.test.xml").1.label := by
  obtain ⟨-, htold⟩ := labels_tell_tests folder?_endedTree isTree_endedTree
  have hnameless : IsTest fits "." endedTree [] ".test.xml" :=
    isTest_endedTree (by simp [endedTree]) (by decide)
  have hnamed : IsTest fits "." endedTree [] "a.test.xml" :=
    isTest_endedTree (by simp [endedTree]) (by decide)
  have hlabel := ((htold _ _ hnameless).name _ undescribed_endedTree.1).2 (by decide)
  have hlabel' := ((htold _ _ hnamed).name _ undescribed_endedTree.2.1).2 (by decide)
  refine ⟨folder?_endedTree, isTree_endedTree, hnameless, hnamed, hlabel, hlabel', ?_⟩
  intro hsame
  rw [hsame, hlabel'] at hlabel
  revert hlabel
  decide

/-- A name that has the ending once more does not make another label. -/
theorem labels_alike_endedTree :
    diskWithEndedTree.storage.folder? "." = some endedTree ∧ IsTree endedTree ∧
    (∃ c ∈ discover diskWithEndedTree.storage ".",
      c.name = "" ∧ "./a.test.xml" ∈ c.paths ∧ "./a.test.xml.test.xml" ∈ c.paths) ∧
    (runTest diskWithEndedTree.storage "./a.test.xml").1.description = none ∧
    (runTest diskWithEndedTree.storage "./a.test.xml.test.xml").1.description = none ∧
    (runTest diskWithEndedTree.storage "./a.test.xml").1.label =
      (runTest diskWithEndedTree.storage "./a.test.xml.test.xml").1.label ∧
    (runTest diskWithEndedTree.storage "./a.test.xml.test.xml").1.label ++ testEnding ≠
      "a.test.xml.test.xml" := by
  have hfirst : IsTest fits "." endedTree [] "a.test.xml" :=
    isTest_endedTree (by simp [endedTree]) (by decide)
  have hsecond : IsTest fits "." endedTree [] "a.test.xml.test.xml" :=
    isTest_endedTree (by simp [endedTree]) (by decide)
  obtain ⟨-, hnone, hnone'⟩ := undescribed_endedTree
  have hcategory := (finds_discover_of_listed folder?_endedTree
    isTree_endedTree).exists_category_of_both hfirst hsecond
  have htold := hfirst.toldByLabel isTree_endedTree
  refine ⟨folder?_endedTree, isTree_endedTree, hcategory, rfl, rfl, ?_, ?_⟩
  · refine (htold.others _ hnone [] _ hsecond _ hnone').2 ?_
    exact ⟨"a.test.xml".toList, .none, .more .none⟩
  · rw [Ne, (hsecond.toldByLabel isTree_endedTree).name _ hnone', not_not]
    decide

end XmlPipeline.Suite
