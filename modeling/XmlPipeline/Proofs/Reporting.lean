import Mathlib.Data.List.Flatten
import XmlPipeline.CommandLine.Invocation
import XmlPipeline.Proofs.Discovery
import XmlPipeline.Proofs.Selection
import XmlPipeline.Proofs.Verdict
set_option autoImplicit false

/-!
Reporting: what the tests are told to have come to. Main statement: every file of the categories
that are asked for is tested once, in order, and told of once; the failures are told again at the
end, each once; the counts add up; and the exit status is 0 exactly if there was a test and all
tests passed.
-/

namespace XmlPipeline.Suite
open Files (IsTree Storage)

/-- The files of a folder that are asked for, as they are discovered there. -/
structure Chosen (storage : Storage) (path : String) (requests : List String)
    (categories : List Category) : Prop where
  mem : ∀ c, c ∈ categories ↔ c ∈ discover storage path ∧ Asked requests c.name
  ordered : (categories.map (·.name)).Pairwise fun a b => Text.bytes a.toList < Text.bytes b.toList
  sorted : ∀ c ∈ categories, c.paths.Pairwise Files.PathBefore
  once : (categories.flatMap (·.paths)).Nodup

/-- The files to test, in sections with their headings. A path to a file is a section by itself, and
no request counts. -/
inductive Plan (storage : Storage) (path : String) (requests : List String) :
    List (Option String × List String) → Prop where
  | file (isFile : storage.isFile path = true) : Plan storage path requests [(none, [path])]
  | folder (notFile : storage.isFile path = false) (categories : List Category)
      (chosen : Chosen storage path requests categories) :
      Plan storage path requests (categories.map fun c => (some c.label, c.paths))

theorem Chosen.unique {storage : Storage} {path : String} {requests : List String}
    {categories others : List Category} (h : Chosen storage path requests categories)
    (h' : Chosen storage path requests others) : categories = others := by
  have hpairwise {cs : List Category} (hcs : Chosen storage path requests cs) :
      cs.Pairwise fun a b => Text.bytes a.name.toList < Text.bytes b.name.toList := by
    have hnames := hcs.ordered
    rwa [List.pairwise_map] at hnames
  have hnodup {cs : List Category} (hcs : Chosen storage path requests cs) : cs.Nodup := by
    refine (hpairwise hcs).imp fun {a b} hlt he => ?_
    rw [he] at hlt
    exact List.lt_irrefl _ hlt
  have hperm : categories.Perm others := by
    rw [List.perm_ext_iff_of_nodup (hnodup h) (hnodup h')]
    intro c
    rw [h.mem, h'.mem]
  exact List.Perm.eq_of_pairwise (fun a b _ _ hab hba => absurd hba (List.lt_asymm hab))
    (hpairwise h) (hpairwise h') hperm

theorem Plan.unique {storage : Storage} {path : String} {requests : List String}
    {planned other : List (Option String × List String)}
    (h : Plan storage path requests planned) (h' : Plan storage path requests other) :
    planned = other := by
  cases h with
  | file isFile =>
    cases h' with
    | file _ => rfl
    | folder notFile => simp [isFile] at notFile
  | folder notFile categories chosen =>
    cases h' with
    | file isFile => simp [notFile] at isFile
    | folder _ others chosen' => rw [chosen.unique chosen']

def plannedFiles (sections : List (Option String × List String)) : List String :=
  sections.flatMap (·.2)

/-- What is told of some tests: warnings first, then the sections with what was noted during each
test and what it came to, and at the end the failures with their reasons, and the counts. -/
structure Account where
  warnings : List Log.Record
  sections : List (Option String × List (TestResult × List Log.Record))
  failures : List (String × String)
  passed : Nat
  failed : Nat

namespace Account

def heading (paint : Paint) : Option String → List Notice
  | none => []
  | some label => [.line "", .line (paint.bold label)]

def failureNotices (failure : String × String) : List Notice :=
  [.line "", .line ("  --- " ++ failure.1 ++ " ---")] ++
    (Text.lines failure.2).map fun line => .line ("  " ++ line)

/-- What was noted during a test, and a line that says what it came to and what it is called. -/
def entry (paint : Paint) (tested : TestResult × List Log.Record) : List Notice :=
  tested.2.map .record ++
    [.line ("  " ++ (if tested.1.outcome = .pass then paint.green "PASS" else paint.red "FAIL") ++
      "  " ++ tested.1.label)]

def counts (paint : Paint) (passed failed : Nat) : String :=
  if failed = 0 then
    "test result: " ++ paint.green "ok" ++ ". " ++ toString passed ++ " passed, 0 failed"
  else
    "test result: " ++ paint.red "FAILED" ++ ". " ++ toString passed ++ " passed, " ++
      toString failed ++ " failed (of " ++ toString (passed + failed) ++ ")"

def notices (paint : Paint) (a : Account) : List Notice :=
  a.warnings.map .record ++
    (a.sections.flatMap fun s => heading paint s.1 ++ s.2.flatMap (entry paint)) ++
    ((if a.failures = [] then []
      else [.line "", .line "failures:"] ++ a.failures.flatMap failureNotices) ++
      [.line "", .line (counts paint a.passed a.failed)])

/-- What is told of files is what came of testing each of them once. -/
structure Faithful (storage : Storage) (planned : List (Option String × List String))
    (a : Account) : Prop where
  sections : a.sections = planned.map fun s => (s.1, s.2.map (runTest storage))
  failures : ∀ path reason, (path, reason) ∈ a.failures ↔
    path ∈ plannedFiles planned ∧ (runTest storage path).1.outcome = .fail reason
  failedOnce : (a.failures.map (·.1)).Nodup
  inOrder : (a.failures.map (·.1)).Sublist (plannedFiles planned)
  passed : a.passed =
    ((plannedFiles planned).filter fun path => (runTest storage path).1.outcome = .pass).length
  failed : a.failed = a.failures.length
  total : a.passed + a.failed = (plannedFiles planned).length

end Account

def TestResult.failure? (r : TestResult) : Option (String × String) :=
  match r.outcome with
  | .pass => none
  | .fail reason => some (r.path, reason)

section Failures

variable (storage : Storage)

def passes (path : String) : Bool := (runTest storage path).1.outcome = .pass

def failureOf? (path : String) : Option (String × String) := (runTest storage path).1.failure?

theorem failureOf?_eq_some_iff (path : String) (failure : String × String) :
    failureOf? storage path = some failure ↔
      failure.1 = path ∧ (runTest storage path).1.outcome = .fail failure.2 := by
  have hpath : (runTest storage path).1.path = path := path_runTest storage path
  rw [failureOf?, TestResult.failure?, hpath]
  cases (runTest storage path).1.outcome with
  | pass => simp
  | fail reason =>
    obtain ⟨path', reason'⟩ := failure
    simp only [Option.some.injEq, Prod.mk.injEq, Outcome.fail.injEq]
    exact and_congr eq_comm Iff.rfl

theorem failureOf?_eq_none_iff (path : String) :
    failureOf? storage path = none ↔ passes storage path = true := by
  rw [failureOf?, TestResult.failure?, passes, decide_eq_true_eq]
  cases (runTest storage path).1.outcome <;> simp

theorem mem_failures_iff (paths : List String) (path reason : String) :
    (path, reason) ∈ paths.filterMap (failureOf? storage) ↔
      path ∈ paths ∧ (runTest storage path).1.outcome = .fail reason := by
  rw [List.mem_filterMap]
  constructor
  · rintro ⟨p, hp, hfailure⟩
    obtain ⟨rfl, houtcome⟩ := (failureOf?_eq_some_iff storage p _).1 hfailure
    exact ⟨hp, houtcome⟩
  · rintro ⟨hp, houtcome⟩
    exact ⟨path, hp, (failureOf?_eq_some_iff storage path _).2 ⟨rfl, houtcome⟩⟩

theorem failures_sublist (paths : List String) :
    ((paths.filterMap (failureOf? storage)).map (·.1)).Sublist paths := by
  induction paths with
  | nil => exact .slnil
  | cons p paths ih =>
    cases h : failureOf? storage p with
    | none =>
      rw [List.filterMap_cons_none h]
      exact .cons p ih
    | some failure =>
      obtain ⟨rfl, -⟩ := (failureOf?_eq_some_iff storage p failure).1 h
      rw [List.filterMap_cons_some h, List.map_cons]
      exact .cons_cons _ ih

theorem passed_add_failed (paths : List String) :
    (paths.filter (passes storage)).length + (paths.filterMap (failureOf? storage)).length =
      paths.length := by
  induction paths with
  | nil => rfl
  | cons p paths ih =>
    cases h : failureOf? storage p with
    | none =>
      have hpass := (failureOf?_eq_none_iff storage p).1 h
      rw [List.filterMap_cons_none h, List.filter_cons_of_pos hpass, List.length_cons,
        List.length_cons]
      omega
    | some failure =>
      have hfail : ¬ passes storage p = true := by
        rw [← failureOf?_eq_none_iff, h]
        simp
      rw [List.filterMap_cons_some h, List.filter_cons_of_neg hfail, List.length_cons,
        List.length_cons]
      omega

theorem failures_eq_nil_iff (paths : List String) :
    paths.filterMap (failureOf? storage) = [] ↔
      ∀ path ∈ paths, (runTest storage path).1.outcome = .pass := by
  rw [List.filterMap_eq_nil_iff]
  simp only [failureOf?_eq_none_iff, passes, decide_eq_true_eq]

end Failures

def accountOf (storage : Storage) (warnings : List Log.Record)
    (planned : List (Option String × List String)) : Account where
  warnings := warnings
  sections := planned.map fun s => (s.1, s.2.map (runTest storage))
  failures := (plannedFiles planned).filterMap (failureOf? storage)
  passed := ((plannedFiles planned).filter (passes storage)).length
  failed := ((plannedFiles planned).filterMap (failureOf? storage)).length

theorem faithful_accountOf (storage : Storage) (warnings : List Log.Record)
    {planned : List (Option String × List String)} (once : (plannedFiles planned).Nodup) :
    (accountOf storage warnings planned).Faithful storage planned where
  sections := rfl
  failures path reason := mem_failures_iff storage _ path reason
  failedOnce := (failures_sublist storage _).nodup once
  inOrder := failures_sublist storage _
  passed := rfl
  failed := rfl
  total := passed_add_failed storage _

def resultsOf (storage : Storage) (paths : List String) : List TestResult :=
  paths.map fun path => (runTest storage path).1

section Results

variable (storage : Storage) (paths : List String)

theorem isPass_eq_passes (path : String) :
    (runTest storage path).1.outcome.isPass = passes storage path := by
  rw [passes]
  cases (runTest storage path).1.outcome <;> simp [Outcome.isPass]

theorem length_passed :
    ((resultsOf storage paths).filter (·.outcome.isPass)).length =
      (paths.filter (passes storage)).length := by
  rw [resultsOf, List.filter_map, List.length_map]
  congr 2
  funext path
  exact isPass_eq_passes storage path

theorem length_failed :
    ((resultsOf storage paths).filter (!·.outcome.isPass)).length =
      (paths.filterMap (failureOf? storage)).length := by
  have hall := List.length_eq_length_filter_add (l := resultsOf storage paths) (·.outcome.isPass)
  have hlength : (resultsOf storage paths).length = paths.length := List.length_map _
  have htotal := passed_add_failed storage paths
  rw [length_passed, hlength] at hall
  omega

theorem summary_resultsOf (paint : Paint) :
    summary paint (resultsOf storage paths) =
      Account.counts paint (paths.filter (passes storage)).length
        (paths.filterMap (failureOf? storage)).length := by
  simp only [summary, length_passed, length_failed, Account.counts]

theorem failureNotices_resultsOf :
    (resultsOf storage paths).flatMap failureNotices =
      (paths.filterMap (failureOf? storage)).flatMap Account.failureNotices := by
  induction paths with
  | nil => rfl
  | cons p paths ih =>
    have hcons : (resultsOf storage (p :: paths)).flatMap failureNotices =
        failureNotices (runTest storage p).1 ++ (resultsOf storage paths).flatMap failureNotices :=
      rfl
    rw [hcons, ih, failureNotices]
    cases h : (runTest storage p).1.outcome with
    | pass =>
      have hnone := (failureOf?_eq_none_iff storage p).2 (by simpa [passes] using h)
      rw [List.filterMap_cons_none hnone, List.nil_append]
    | fail reason =>
      have hsome := (failureOf?_eq_some_iff storage p (p, reason)).2 ⟨rfl, h⟩
      rw [List.filterMap_cons_some hsome, List.flatMap_cons, Account.failureNotices, path_runTest]

theorem all_isPass_resultsOf_iff :
    (resultsOf storage paths).all (·.outcome.isPass) = true ↔
      paths.filterMap (failureOf? storage) = [] := by
  rw [failures_eq_nil_iff, resultsOf, List.all_map, List.all_eq_true]
  refine forall₂_congr fun path _ => ?_
  rw [Function.comp, isPass_eq_passes, passes, decide_eq_true_eq]

theorem closingNotices_resultsOf (paint : Paint) :
    closingNotices paint (resultsOf storage paths) =
      (if paths.filterMap (failureOf? storage) = [] then []
        else [.line "", .line "failures:"] ++
          (paths.filterMap (failureOf? storage)).flatMap Account.failureNotices) ++
        [.line "", .line (Account.counts paint (paths.filter (passes storage)).length
          (paths.filterMap (failureOf? storage)).length)] := by
  simp only [closingNotices, all_isPass_resultsOf_iff, failureNotices_resultsOf, summary_resultsOf]

end Results

theorem entryNotices_eq_entry (paint : Paint) (tested : TestResult × List Log.Record) :
    entryNotices paint tested = Account.entry paint tested := by
  rw [entryNotices, TestResult.entry, Account.entry]
  cases tested.1.outcome <;> simp [Outcome.isPass]

def reportOf (storage : Storage) (paint : Paint) (warnings : List Log.Record)
    (planned : List (Option String × List String)) : Report :=
  .ofTests (warnings.map .record) paint
    (planned.map fun s => (Account.heading paint s.1, runFiles storage s.2))

theorem results_reportOf (storage : Storage) (paint : Paint) (warnings : List Log.Record)
    (planned : List (Option String × List String)) :
    (reportOf storage paint warnings planned).results = resultsOf storage (plannedFiles planned) := by
  rw [resultsOf, plannedFiles, List.map_flatMap]
  simp only [reportOf, Report.ofTests, List.flatMap_map, runFiles, List.map_map]
  rfl

theorem notices_reportOf (storage : Storage) (paint : Paint) (warnings : List Log.Record)
    (planned : List (Option String × List String)) :
    (reportOf storage paint warnings planned).notices =
      (accountOf storage warnings planned).notices paint := by
  have hclosing : (reportOf storage paint warnings planned).notices =
      warnings.map .record ++
        ((planned.map fun s => (Account.heading paint s.1, runFiles storage s.2)).flatMap
          fun g => g.1 ++ g.2.flatMap (entryNotices paint)) ++
        closingNotices paint (reportOf storage paint warnings planned).results := rfl
  rw [hclosing, results_reportOf, closingNotices_resultsOf, Account.notices, accountOf]
  simp only [List.flatMap_map, runFiles, funext (entryNotices_eq_entry paint)]

theorem success_reportOf_iff (storage : Storage) (paint : Paint) (warnings : List Log.Record)
    (planned : List (Option String × List String)) :
    (reportOf storage paint warnings planned).success = true ↔
      ∀ path ∈ plannedFiles planned, (runTest storage path).1.outcome = .pass := by
  have hsuccess : (reportOf storage paint warnings planned).success =
      (reportOf storage paint warnings planned).results.all (·.outcome.isPass) := rfl
  rw [hsuccess, results_reportOf, all_isPass_resultsOf_iff, failures_eq_nil_iff]

section Selection

variable {storage : Storage} {path : String}

theorem chosen_select (requests : List String)
    (trees : ∀ entries, storage.folder? path = some entries → IsTree entries) :
    Chosen storage path requests (select (discover storage path) requests) := by
  have hfinds := finds_discover trees
  have hsub := select_sublist (discover storage path) requests
  exact {
    mem := mem_select_iff _ requests
    ordered := hfinds.ordered.sublist (hsub.map _)
    sorted := fun c hc => hfinds.sorted c (hsub.subset hc)
    once := hfinds.once.sublist (hsub.flatMap _) }

theorem runTests_of_file (paint : Paint) (requests : List String)
    (isFile : storage.isFile path = true) :
    runTests storage path paint requests = reportOf storage paint [] [(none, [path])] := by
  rw [runTests, if_pos isFile]
  rfl

theorem runTests_of_selected (paint : Paint) {requests : List String}
    (notFile : storage.isFile path = false)
    (selected : select (discover storage path) requests ≠ []) :
    runTests storage path paint requests =
      reportOf storage paint (selectionJournal (discover storage path) requests)
        ((select (discover storage path) requests).map fun c => (some c.label, c.paths)) := by
  have hall : discover storage path ≠ [] := by
    intro h
    have hsub := select_sublist (discover storage path) requests
    rw [h, List.sublist_nil] at hsub
    exact selected (by rw [h, hsub])
  rw [runTests, if_neg (by simp [notFile])]
  simp only [if_neg hall, if_neg selected, reportOf, List.map_map]
  rfl

theorem runTests_of_none (paint : Paint) {requests : List String}
    (notFile : storage.isFile path = false)
    (unselected : select (discover storage path) requests = []) :
    runTests storage path paint requests =
      ⟨if discover storage path = [] then [noTests path]
        else (selectionJournal (discover storage path) requests).map .record ++
          [.line "no matching categories found"], [], false⟩ := by
  rw [runTests, if_neg (by simp [notFile])]
  simp only [unselected]
  split <;> rfl

theorem noTests_eq (path : String) :
    noTests path = .line ("no .test.xml files found in " ++ path) := by
  have htext : "no " ++ testEnding ++ " files found in " = "no .test.xml files found in " := by
    decide
  rw [noTests, htext]

theorem plannedFiles_eq_nil_iff {categories : List Category}
    (filled : ∀ c ∈ categories, c.paths ≠ []) :
    plannedFiles (categories.map fun c => (some c.label, c.paths)) = [] ↔ categories = [] := by
  cases categories with
  | nil => simp [plannedFiles]
  | cons c categories => simp [plannedFiles, filled c List.mem_cons_self]

end Selection

end XmlPipeline.Suite

namespace XmlPipeline.CommandLine
open Files (IsTree Listing)
open Suite (Plan Account plannedFiles discover runTest)

/-- The test command tests the files that are planned, and tells what came of it. -/
structure Tested (w : World) (o : TestOptions) (planned : List (Option String × List String)) :
    Prop where
  once : (plannedFiles planned).Nodup
  told : plannedFiles planned ≠ [] → ∃ account : Account, account.Faithful w.storage planned ∧
    (test w o).notices = account.notices ⟨!o.noColor⟩
  nothing : plannedFiles planned = [] → (test w o).notices =
    if discover w.storage o.path = [] then
      [.line ("no .test.xml files found in " ++ o.path)]
    else (Suite.selectionJournal (discover w.storage o.path) o.categories).map .record ++
      [.line "no matching categories found"]
  success : (test w o).status.code = 0 ↔ plannedFiles planned ≠ [] ∧
    ∀ path ∈ plannedFiles planned, (runTest w.storage path).1.outcome = .pass
  failure : (test w o).status.code ≠ 0 → (test w o).status.code = 1

section

variable {w : World} {o : TestOptions} {report : Suite.Report}

theorem notices_test (runs : o.listCategories = false)
    (h : Suite.runTests w.storage o.path ⟨!o.noColor⟩ o.categories = report) :
    (test w o).notices = report.notices := by
  simp [test, runs, h]

theorem code_test_eq_zero_iff (runs : o.listCategories = false)
    (h : Suite.runTests w.storage o.path ⟨!o.noColor⟩ o.categories = report) :
    (test w o).status.code = 0 ↔ report.success = true := by
  cases hs : report.success <;> simp [test, runs, h, hs, Status.code]

theorem code_test_of_ne_zero (runs : o.listCategories = false)
    (h : (test w o).status.code ≠ 0) : (test w o).status.code = 1 := by
  cases hs : (Suite.runTests w.storage o.path ⟨!o.noColor⟩ o.categories).success with
  | true => exact absurd ((code_test_eq_zero_iff runs rfl).2 hs) h
  | false => simp [test, runs, hs, Status.code]

theorem tested_of_report (runs : o.listCategories = false) {warnings : List Log.Record}
    {planned : List (Option String × List String)}
    (h : Suite.runTests w.storage o.path ⟨!o.noColor⟩ o.categories =
      Suite.reportOf w.storage ⟨!o.noColor⟩ warnings planned)
    (nonempty : plannedFiles planned ≠ []) (once : (plannedFiles planned).Nodup) :
    Tested w o planned where
  once := once
  told _ := by
    refine ⟨Suite.accountOf w.storage warnings planned, Suite.faithful_accountOf _ _ once, ?_⟩
    rw [notices_test runs h]
    exact Suite.notices_reportOf w.storage _ warnings planned
  nothing hnone := absurd hnone nonempty
  success := by
    rw [code_test_eq_zero_iff runs h, Suite.success_reportOf_iff]
    exact (and_iff_right nonempty).symm
  failure := code_test_of_ne_zero runs

end

theorem exists_tested (w : World) (o : TestOptions) (runs : o.listCategories = false)
    (trees : ∀ entries, w.storage.folder? o.path = some entries → IsTree entries) :
    ∃ planned, Plan w.storage o.path o.categories planned ∧ Tested w o planned := by
  cases hfile : w.storage.isFile o.path with
  | true =>
    have honly : plannedFiles [(none, [o.path])] = [o.path] := rfl
    refine ⟨[(none, [o.path])], .file hfile,
      tested_of_report runs (Suite.runTests_of_file _ _ hfile) ?_ ?_⟩
    · rw [honly]
      exact List.cons_ne_nil o.path []
    · rw [honly]
      exact List.nodup_singleton o.path
  | false =>
    have hchosen := Suite.chosen_select o.categories trees
    have hfilled : ∀ c ∈ Suite.select (discover w.storage o.path) o.categories, c.paths ≠ [] :=
      fun c hc => Suite.paths_ne_nil ((hchosen.mem c).1 hc).1
    have hnone := Suite.plannedFiles_eq_nil_iff hfilled
    have honce : (plannedFiles ((Suite.select (discover w.storage o.path) o.categories).map
        fun c => (some c.label, c.paths))).Nodup := by
      rw [plannedFiles, List.flatMap_map]
      exact hchosen.once
    refine ⟨_, .folder hfile _ hchosen, ?_⟩
    by_cases hselected : Suite.select (discover w.storage o.path) o.categories = []
    · have hreport := Suite.runTests_of_none ⟨!o.noColor⟩ hfile hselected
      exact {
        once := honce
        told := fun h => absurd (hnone.2 hselected) h
        nothing := fun _ => by rw [notices_test runs hreport, ← Suite.noTests_eq]
        success := by
          rw [code_test_eq_zero_iff runs hreport]
          simp [hnone.2 hselected]
        failure := code_test_of_ne_zero runs }
    · exact tested_of_report runs (Suite.runTests_of_selected _ hfile hselected)
        (fun h => hselected (hnone.1 h)) honce

/-- There is one plan, and every file in it is tested and told of, each once, however often and in
whatever order its category is asked for. The status is 0 if there was a test and all passed. -/
theorem test_reports (w : World) (o : TestOptions) (runs : o.listCategories = false)
    (trees : ∀ entries, w.storage.folder? o.path = some entries → IsTree entries) :
    ∃ planned, Plan w.storage o.path o.categories planned ∧
      (∀ other, Plan w.storage o.path o.categories other → other = planned) ∧
      Tested w o planned := by
  obtain ⟨planned, hplan, htested⟩ := exists_tested w o runs trees
  exact ⟨planned, hplan, fun other hother => hother.unique hplan, htested⟩

def mixedTree : Listing :=
  [("1.test.xml", .file []),
    ("a", .folder [("b", .folder [("3.test.xml", .file [])]),
      ("2.test.xml", .file (Text.bytes
        "---\ndescription = 'first'\nexpect_parse_error = true\n---\n<nope/>".toList))])]

def worldOfMixedTree : World where
  storage := (Files.Disk.mk [("", .folder mixedTree)]).storage
  environment := ⟨none, none, none, none⟩
  outputFull := false

/-- The inner folder is asked for by itself and with the outer one, which is asked for twice. -/
def askOverlapping : TestOptions where
  path := "."
  categories := ["a/b", "/a/", "a"]
  noColor := true
  listCategories := false

def plannedInMixedTree : List (Option String × List String) :=
  [(some "a", ["./a/2.test.xml"]), (some "a/b", ["./a/b/3.test.xml"])]

theorem isTree_mixedTree : IsTree mixedTree := by
  have hinner : IsTree [("3.test.xml", .file [])] :=
    .file _ _ ⟨by decide, by decide, by decide, by decide⟩ (by simp) .nil
  refine .file _ _ ⟨by decide, by decide, by decide, by decide⟩ (by simp) ?_
  refine .folder _ ⟨by decide, by decide, by decide, by decide⟩ (by simp) ?_ .nil
  exact .folder _ ⟨by decide, by decide, by decide, by decide⟩ (by simp) hinner
    (.file _ _ ⟨by decide, by decide, by decide, by decide⟩ (by simp) .nil)

theorem folder?_mixedTree :
    worldOfMixedTree.storage.folder? askOverlapping.path = some mixedTree := rfl

def foundInMixedTree : List Suite.Found :=
  [⟨[], "1.test.xml", "./1.test.xml"⟩, ⟨["a"], "2.test.xml", "./a/2.test.xml"⟩,
    ⟨["a", "b"], "3.test.xml", "./a/b/3.test.xml"⟩]

theorem discover_mixedTree : discover worldOfMixedTree.storage askOverlapping.path =
    [⟨"", ["./1.test.xml"]⟩, ⟨"a", ["./a/2.test.xml"]⟩, ⟨"a/b", ["./a/b/3.test.xml"]⟩] := by
  have hperm : (Suite.foundIn askOverlapping.path [] mixedTree).Perm foundInMixedTree := by
    decide +kernel
  have hsorted : foundInMixedTree.mergeSort Suite.Found.le = foundInMixedTree :=
    List.mergeSort_of_pairwise (by decide +kernel)
  have hnames : Suite.categoryNames foundInMixedTree = ["", "a", "a/b"] := by
    have hdistinct : Suite.distinct (foundInMixedTree.map Suite.Found.category) =
        ["", "a", "a/b"] := by decide +kernel
    rw [Suite.categoryNames, hdistinct]
    exact List.mergeSort_of_pairwise (by decide +kernel)
  rw [discover, folder?_mixedTree, Option.getD_some,
    (Suite.placed_foundIn _ isTree_mixedTree).categorize_eq_of_perm hperm, Suite.categorize_eq,
    hnames]
  simp only [Suite.filesOf, hsorted]
  decide +kernel

theorem select_mixedTree :
    Suite.select (discover worldOfMixedTree.storage askOverlapping.path) askOverlapping.categories =
      [⟨"a", ["./a/2.test.xml"]⟩, ⟨"a/b", ["./a/b/3.test.xml"]⟩] := by
  rw [discover_mixedTree]
  decide +kernel

theorem runTests_mixedTree :
    Suite.runTests worldOfMixedTree.storage askOverlapping.path ⟨!askOverlapping.noColor⟩
      askOverlapping.categories =
        Suite.reportOf worldOfMixedTree.storage ⟨false⟩ [] plannedInMixedTree := by
  have hjournal : Suite.selectionJournal (discover worldOfMixedTree.storage askOverlapping.path)
      askOverlapping.categories = [] := by
    rw [discover_mixedTree]
    decide +kernel
  rw [Suite.runTests_of_selected _ rfl (by rw [select_mixedTree]; exact List.cons_ne_nil _ _),
    select_mixedTree, hjournal]
  rfl

theorem test_reports_askOverlapping :
    (askOverlapping.listCategories = false ∧
      ∀ entries, worldOfMixedTree.storage.folder? askOverlapping.path = some entries →
        IsTree entries) ∧
    (∀ planned, Plan worldOfMixedTree.storage askOverlapping.path askOverlapping.categories planned ↔
      planned = plannedInMixedTree) ∧
    Tested worldOfMixedTree askOverlapping plannedInMixedTree ∧
    (test worldOfMixedTree askOverlapping).notices =
      [.text "\n", .text "a\n",
        .record ⟨.trace, "xpl::parser::xml", "closed root element", [("root", "nope")]⟩,
        .text "  PASS  first\n",
        .text "\n", .text "a/b\n", .text "  FAIL  3\n",
        .text "\n", .text "failures:\n", .text "\n", .text "  --- ./a/b/3.test.xml ---\n",
        .text "  frontmatter error: missing opening --- frontmatter delimiter\n",
        .text "\n", .text "test result: FAILED. 1 passed, 1 failed (of 2)\n"] ∧
    (test worldOfMixedTree askOverlapping).status = .failure := by
  have htrees : ∀ entries, worldOfMixedTree.storage.folder? askOverlapping.path = some entries →
      IsTree entries := by
    intro entries h
    have hsame : mixedTree = entries := Option.some.inj (folder?_mixedTree.symm.trans h)
    rw [← hsame]
    exact isTree_mixedTree
  obtain ⟨planned, hplan, hunique, htested⟩ :=
    test_reports worldOfMixedTree askOverlapping rfl htrees
  have hplanned : plannedInMixedTree = planned := by
    refine hunique _ ?_
    have hselected := Plan.folder rfl _ (Suite.chosen_select askOverlapping.categories htrees)
    rwa [select_mixedTree] at hselected
  subst hplanned
  refine ⟨⟨rfl, htrees⟩, fun other => ⟨hunique other, fun h => h ▸ hplan⟩, htested, ?_, ?_⟩
  · rw [notices_test rfl runTests_mixedTree]
    decide +kernel
  · rw [test, runTests_mixedTree]
    decide +kernel

end XmlPipeline.CommandLine
