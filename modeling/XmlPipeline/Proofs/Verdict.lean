import XmlPipeline.Proofs.Lines
import XmlPipeline.Proofs.Outputs
set_option autoImplicit false

/-!
Verdicts: when a test passes. Main statement: a test passes exactly when its file can be read, and
its program does what its front matter expects, be it that the program is refused or that a run of
it comes to this value or this error and prints this output.
-/

namespace XmlPipeline.Files

theorem Disk.read_eq_ok_iff (disk : Disk) (path text : String) :
    disk.read path = .ok text ↔ disk.locate path = .ok (.file (Text.bytes text.toList)) := by
  unfold read
  cases disk.locate path with
  | error fault => simp
  | ok place =>
    cases place with
    | folder entries above => simp
    | outside => simp
    | file content =>
      simp only [Except.ok.injEq, Place.file.injEq]
      constructor
      · intro h
        cases hd : Text.decode? content with
        | none => simp [hd] at h
        | some read =>
          simp only [hd, Except.ok.injEq] at h
          rw [← h, Text.bytes_of_decode? hd]
      · rintro rfl
        simp [Text.decode?, Text.decodeFrom_bytes]

end XmlPipeline.Files

namespace XmlPipeline.Suite
open Files (Disk Storage)
open Run (RunError Value)

/-- How a run of a program goes whose output is all taken: what it comes to, and what it prints. -/
structure Ran (storage : Storage) (base : String) (program : Program)
    (result : Except RunError Value) (output : String) : Prop where
  result : (Run.runProgram storage.read base program { sink := {} }).2 = result
  output : (Run.runProgram storage.read base program { sink := {} }).1.sink.accepted =
    Text.bytes output.toList

/-- A run does what is expected of it. Without an expected error it must not fail; the output counts
whether it fails or not. -/
structure Expectation.Met (e : Expectation) (result : Except RunError Value) (output : String) :
    Prop where
  failure : ∀ part, e.error = some part →
    ∃ error, result = .error error ∧ part.toList <:+: error.message.toList
  success : e.error = none →
    ∃ value, result = .ok value ∧ ∀ expected, e.value = some expected → value.display = expected
  output : ∀ expected, e.output = some expected → Text.SameButForBlanks output expected

/-- A program does what its test expects: it is refused, or a run of it meets the expectations. -/
inductive Conforms (storage : Storage) (path : String) (e : Expectation) (source : String) :
    Prop where
  | refused (expected : e.parseError = true) (error : ParseError)
      (parsed : Program.parse source 0 = .error error)
  | met (expected : e.parseError = false) (program : Program)
      (parsed : Program.parse source 0 = .ok program) (result : Except RunError Value)
      (output : String) (ran : Ran storage ((Files.parent? path).getD ".") program result output)
      (met : e.Met result output)

def Passes (storage : Storage) (path : String) : Prop :=
  ∃ content e source, storage.read path = .ok content ∧ readTestFile content = .ok (e, source) ∧
    Conforms storage path e source

theorem trimmed_eq_trimmed_iff (a b : String) :
    trimmed a = trimmed b ↔ Text.SameButForBlanks a b := by
  rw [trimmed, trimmed, String.ofList_inj, Text.trim_eq_trim_iff]

theorem valueFault?_eq_none_iff (e : Expectation) (actual : String) :
    valueFault? e actual = none ↔ ∀ expected, e.value = some expected → actual = expected := by
  cases h : e.value <;> simp [valueFault?, h]

theorem outputFault?_eq_none_iff (e : Expectation) (actual : String) :
    outputFault? e actual = none ↔
      ∀ expected, e.output = some expected → Text.SameButForBlanks actual expected := by
  cases h : e.output <;> simp [outputFault?, h, trimmed_eq_trimmed_iff]

theorem resultFault?_eq_none_iff (e : Expectation) (result : Except RunError Value) :
    resultFault? e result = none ↔
      (∀ part, e.error = some part →
        ∃ error, result = .error error ∧ part.toList <:+: error.message.toList) ∧
      (e.error = none → ∃ value, result = .ok value ∧
        ∀ expected, e.value = some expected → value.display = expected) := by
  unfold resultFault?
  cases he : e.error with
  | some part => cases result <;> simp [Text.hasPart_iff_infix]
  | none => cases result <;> simp [valueFault?_eq_none_iff]

theorem judge_eq_pass_iff (e : Expectation) (p : Performance) :
    e.judge p = .pass ↔ e.Met p.result p.output := by
  have hnone : e.judge p = .pass ↔
      resultFault? e p.result = none ∧ outputFault? e p.output = none := by
    rw [Expectation.judge]
    cases resultFault? e p.result <;> cases outputFault? e p.output <;> simp
  rw [hnone, resultFault?_eq_none_iff, outputFault?_eq_none_iff]
  constructor
  · rintro ⟨⟨failure, success⟩, output⟩
    exact ⟨failure, success, output⟩
  · rintro ⟨failure, success, output⟩
    exact ⟨⟨failure, success⟩, output⟩

theorem ran_perform (storage : Storage) (base : String) (program : Program) :
    Ran storage base program (perform storage base program).1.result
      (perform storage base program).1.output := by
  have hlines : (Run.runProgram storage.read base program { sink := {} }).1.sink.accepted = _ :=
    Run.accepted_runProgram_of_unlimited rfl
  obtain ⟨output, -, houtput⟩ := Run.exists_framed_of_lines fun _ => Run.exists_printedLine_of_mem
    ⟨storage.read, base, program.source⟩ (Run.flatten program.root) .unit
  rw [List.nil_append, houtput] at hlines
  refine ⟨rfl, ?_⟩
  simp only [perform]
  rw [hlines, Text.decode_bytes]

theorem Ran.eq_perform {storage : Storage} {base : String} {program : Program}
    {result : Except RunError Value} {output : String}
    (h : Ran storage base program result output) :
    (perform storage base program).1 = ⟨result, output⟩ := by
  simp only [perform]
  rw [h.result, h.output, Text.decode_bytes]

theorem judgeSource_eq_pass_iff (storage : Storage) (path : String) (e : Expectation)
    (source : String) :
    (judgeSource storage path e source).1 = .pass ↔ Conforms storage path e source := by
  unfold judgeSource
  cases hparse : Program.parse source 0 with
  | error error =>
    cases he : e.parseError with
    | true => exact ⟨fun _ => .refused he error hparse, fun _ => rfl⟩
    | false =>
      refine ⟨nofun, fun h => ?_⟩
      cases h with
      | refused expected => simp [he] at expected
      | met _ program parsed => simp [hparse] at parsed
  | ok program =>
    cases he : e.parseError with
    | true =>
      refine ⟨nofun, fun h => ?_⟩
      cases h with
      | refused _ error parsed => simp [hparse] at parsed
      | met expected => simp [he] at expected
    | false =>
      simp only [judge_eq_pass_iff, testFolder]
      constructor
      · exact fun h => .met he program hparse _ _ (ran_perform storage _ program) h
      · intro h
        cases h with
        | refused expected => simp [he] at expected
        | met _ program' parsed result output ran met =>
          rw [hparse, Except.ok.injEq] at parsed
          subst parsed
          rwa [ran.eq_perform]

theorem runTest_eq_of_read {storage : Storage} {path content source : String} {e : Expectation}
    (hread : storage.read path = .ok content) (htest : readTestFile content = .ok (e, source)) :
    (runTest storage path).1 = ⟨path, e.description, (judgeSource storage path e source).1⟩ := by
  simp only [runTest, hread, htest]

/-- The file of a test cannot be read, or has no front matter that can be. -/
def Unreadable (storage : Storage) (path : String) : Prop :=
  ∀ content e source, storage.read path = .ok content → readTestFile content ≠ .ok (e, source)

theorem Unreadable.exists_fail {storage : Storage} {path : String} (h : Unreadable storage path) :
    ∃ reason, (runTest storage path).1 = ⟨path, none, .fail reason⟩ := by
  unfold runTest
  cases hread : storage.read path with
  | error fault => exact ⟨_, rfl⟩
  | ok content =>
    cases htest : readTestFile content with
    | error fault =>
      simp only [htest]
      exact ⟨_, rfl⟩
    | ok parts => exact absurd htest (h content parts.1 parts.2 hread)

theorem exists_read_or_unreadable (storage : Storage) (path : String) :
    (∃ content e source, storage.read path = .ok content ∧
      readTestFile content = .ok (e, source)) ∨ Unreadable storage path := by
  by_cases h : ∃ content e source, storage.read path = .ok content ∧
      readTestFile content = .ok (e, source)
  · exact .inl h
  · exact .inr fun content e source hread htest => h ⟨content, e, source, hread, htest⟩

theorem path_runTest (storage : Storage) (path : String) :
    (runTest storage path).1.path = path := by
  rcases exists_read_or_unreadable storage path with ⟨content, e, source, hread, htest⟩ | h
  · rw [runTest_eq_of_read hread htest]
  · obtain ⟨reason, hfail⟩ := h.exists_fail
    rw [hfail]

theorem outcome_eq_pass_iff (storage : Storage) (path : String) :
    (runTest storage path).1.outcome = .pass ↔ Passes storage path := by
  constructor
  · intro hpass
    rcases exists_read_or_unreadable storage path with ⟨content, e, source, hread, htest⟩ | h
    · rw [runTest_eq_of_read hread htest] at hpass
      exact ⟨content, e, source, hread, htest, (judgeSource_eq_pass_iff _ _ _ _).1 hpass⟩
    · obtain ⟨reason, hfail⟩ := h.exists_fail
      simp [hfail] at hpass
  · rintro ⟨content, e, source, hread, htest, hconforms⟩
    rw [runTest_eq_of_read hread htest]
    exact (judgeSource_eq_pass_iff _ _ _ _).2 hconforms

/-- A test passes exactly when its program does what it expects, and fails in all other cases. It
keeps its description, whether it passes or not, if its front matter can be read. A file on a disk is
read if its bytes are those of a text. -/
theorem verdict_of_test (storage : Storage) (path : String) :
    ((runTest storage path).1.outcome = .pass ↔ Passes storage path) ∧
    (¬ Passes storage path → ∃ reason, (runTest storage path).1.outcome = .fail reason) ∧
    (∀ content e source, storage.read path = .ok content →
      readTestFile content = .ok (e, source) →
      (runTest storage path).1.description = e.description) ∧
    (Unreadable storage path → (runTest storage path).1.description = none) ∧
    (runTest storage path).1.path = path ∧
    ∀ disk : Disk, disk.storage = storage → ∀ content, storage.read path = .ok content ↔
      disk.locate path = .ok (.file (Text.bytes content.toList)) := by
  have hpass := outcome_eq_pass_iff storage path
  refine ⟨hpass, ?_, ?_, ?_, path_runTest storage path, ?_⟩
  · intro h
    cases ho : (runTest storage path).1.outcome with
    | pass => exact absurd (hpass.1 ho) h
    | fail reason => exact ⟨reason, rfl⟩
  · intro content e source hread htest
    rw [runTest_eq_of_read hread htest]
  · intro h
    obtain ⟨reason, hfail⟩ := h.exists_fail
    rw [hfail]
  · rintro disk rfl content
    exact disk.read_eq_ok_iff path content

/-- A test in the folder `d` whose program prints the file `a`, and a file of that name in a folder. -/
def testWithFileIn (folder : String) : Storage where
  read path :=
    if path = "d/t.test.xml" then
      .ok "---\nexpect_output = '\"A\"'\n---\n<pipeline><file>a</file><print/></pipeline>"
    else if path = folder ++ "/a" then .ok "A"
    else .error .notFound
  isFile _ := true
  folder? _ := none

/-- Files are looked for where the test is, and not where the tests are run. -/
theorem verdict_of_test_besideFile :
    Passes (testWithFileIn "d") "d/t.test.xml" ∧ ¬ Passes (testWithFileIn ".") "d/t.test.xml" := by
  have hbeside : (runTest (testWithFileIn "d") "d/t.test.xml").1.outcome = .pass := by
    decide +kernel
  have helsewhere : (runTest (testWithFileIn ".") "d/t.test.xml").1.outcome ≠ .pass := by
    decide +kernel
  obtain ⟨hpass, -⟩ := verdict_of_test (testWithFileIn "d") "d/t.test.xml"
  obtain ⟨hpass', -⟩ := verdict_of_test (testWithFileIn ".") "d/t.test.xml"
  exact ⟨hpass.1 hbeside, fun h => helsewhere (hpass'.2 h)⟩

/-- What has been printed before an expected error is compared as well. -/
example :
    (runTest
      { read := fun path => .ok (if path = "a" then "A" else
          "---\nexpect_output = 'B'\nexpect_error = 'got Unit'\n---\n" ++
            "<pipeline><file>a</file><print/><pipeline><print/></pipeline></pipeline>")
        isFile := fun _ => true
        folder? := fun _ => none } "t.test.xml").1.outcome =
      .fail "output mismatch\n  expected: B\n  actual:   \"A\"" := by
  decide +kernel

end XmlPipeline.Suite
