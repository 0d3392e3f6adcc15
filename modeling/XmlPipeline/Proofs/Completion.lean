import Mathlib.Data.List.DropRight
import Mathlib.Data.List.Forall2
import Mathlib.Data.List.Induction
import XmlPipeline.Proofs.Truncation
set_option autoImplicit false

/-!
Completion: what a run comes to that nothing stops. Main statement: its value and its output can be
read off the places of files, prints and pipelines in the source, and it is not stopped exactly when
each file can be read and each print has a file before it that no pipeline shuts off. Labels, and
which of the two other scopes stands somewhere, are of no account.
-/

namespace XmlPipeline.Run
open Markup (Span Located)

def filePath? : Instruction → Option String
  | .act .file _ path => some path
  | _ => none

/-- A pipeline lets go of what it is handed as it opens; other instructions do not. -/
def isPipeline : Instruction → Bool
  | .block .pipeline _ _ => true
  | _ => false

def sinceReset (is : List Instruction) : List Instruction := is.rtakeWhile (!isPipeline ·)

def lastFile? (is : List Instruction) : Option String := (is.filterMap filePath?).getLast?

/-- For each print among some instructions, in their order, what stands before it. -/
def beforePrints : List Instruction → List (List Instruction)
  | [] => []
  | i :: rest =>
    let later := (beforePrints rest).map (i :: ·)
    match printSpan? i with
    | some _ => [] :: later
    | none => later

def Contains (ctx : Context) (path content : String) : Prop :=
  ctx.read (Files.join ctx.base path) = .ok content

/-- The text of the last file since a pipeline opened, or nothing if there is no such file. -/
def FinalValue (ctx : Context) (is : List Instruction) (value : Value) : Prop :=
  match lastFile? (sinceReset is) with
  | none => value = .unit
  | some path => ∃ content, Contains ctx path content ∧ value = .text content

/-- A line for each print: the text of the file that stands nearest before it, in quotes, and a
line feed. -/
def FinalOutput (ctx : Context) (is : List Instruction) (output : List UInt8) : Prop :=
  ∃ contents, output =
      contents.flatMap (fun content => Text.bytes (Text.quote content).toList ++ [0x0A]) ∧
    List.Forall₂
      (fun before content => ∃ path, lastFile? before = some path ∧ Contains ctx path content)
      (beforePrints is) contents

def Readable (ctx : Context) (is : List Instruction) : Prop :=
  ∀ path ∈ is.filterMap filePath?, ∃ content, Contains ctx path content

/-- Between each print and the last opening of a pipeline before it there is a file. -/
def Fed (is : List Instruction) : Prop :=
  ∀ before span label after, is = before ++ .act .print span label :: after →
    lastFile? (sinceReset before) ≠ none

theorem printedLine_eq (content : String) :
    printedLine content = Text.bytes (Text.quote content).toList ++ [0x0A] := by
  rw [printedLine, String.toList_append, Text.bytes_append]
  rfl

theorem lastFile?_concat (is : List Instruction) (i : Instruction) :
    lastFile? (is ++ [i]) = (filePath? i).or (lastFile? is) := by
  cases h : filePath? i <;> simp [lastFile?, List.filterMap_append, h]

theorem sinceReset_concat_of_pipeline (is : List Instruction) {i : Instruction}
    (h : isPipeline i = true) : sinceReset (is ++ [i]) = [] :=
  List.rtakeWhile_concat_neg _ _ _ (by simp [h])

theorem sinceReset_concat (is : List Instruction) {i : Instruction} (h : isPipeline i = false) :
    sinceReset (is ++ [i]) = sinceReset is ++ [i] :=
  List.rtakeWhile_concat_pos _ _ _ (by simp [h])

theorem lastFile?_of_sinceReset {is : List Instruction} {path : String}
    (h : lastFile? (sinceReset is) = some path) : lastFile? is = some path := by
  obtain ⟨first, hparts⟩ := List.rtakeWhile_suffix (!isPipeline ·) is
  rw [← hparts, lastFile?, List.filterMap_append, List.getLast?_append]
  have hlast : ((is.rtakeWhile (!isPipeline ·)).filterMap filePath?).getLast? = some path := h
  rw [hlast, Option.some_or]

theorem beforePrints_concat (is : List Instruction) (i : Instruction) :
    beforePrints (is ++ [i]) = beforePrints is ++ if (printSpan? i).isSome then [is] else [] := by
  induction is with
  | nil => cases h : printSpan? i <;> simp [beforePrints, h]
  | cons j is ih =>
    rw [List.cons_append, beforePrints, beforePrints, ih]
    cases printSpan? j <;> cases printSpan? i <;> simp

/-- What an instruction makes of a value, and what it prints, when nothing stops it. -/
inductive Does (ctx : Context) : Instruction → Value → Value → List UInt8 → Prop where
  | opens (span : Span) (body : List Instruction) (value : Value) :
      Does ctx (.block .pipeline span body) value .unit []
  | passes {scope : Scope} (h : scope ≠ .pipeline) (span : Span) (body : List Instruction)
      (value : Value) : Does ctx (.block scope span body) value value []
  | reads (span : Span) {path content : String} (value : Value) (h : Contains ctx path content) :
      Does ctx (.act .file span path) value (.text content) []
  | prints (span : Span) (label content : String) :
      Does ctx (.act .print span label) (.text content) (.text content) (printedLine content)

def Completes (ctx : Context) (is : List Instruction) (value : Value) (output : List UInt8) :
    Prop :=
  (script ctx (is.filterMap operation?) .unit).ending = .ok value ∧
    linesBytes (script ctx (is.filterMap operation?) .unit).lines = output

theorem linesBytes_singleton (line : Located (List UInt8)) : linesBytes [line] = line.value := by
  rw [linesBytes, List.flatMap_singleton]

theorem operations_file (span : Span) (path : String) :
    [Instruction.act .file span path].filterMap operation? = [.read path span] := rfl

theorem operations_print (span : Span) (label : String) :
    [Instruction.act .print span label].filterMap operation? = [.print span] := rfl

theorem does_iff {ctx : Context} {i : Instruction} {value value' : Value} {part : List UInt8} :
    Does ctx i value value' part ↔
      (script ctx ([i].filterMap operation?) value).ending = .ok value' ∧
        linesBytes (script ctx ([i].filterMap operation?) value).lines = part := by
  constructor
  · intro h
    cases h with
    | opens span body value => exact ⟨rfl, rfl⟩
    | @passes scope h span body value =>
      cases scope with
      | pipeline => exact absurd rfl h
      | input => exact ⟨rfl, rfl⟩
      | step => exact ⟨rfl, rfl⟩
    | @reads span path content value h =>
      rw [Contains] at h
      rw [operations_file, script, h]
      exact ⟨rfl, rfl⟩
    | prints span label content =>
      simp only [operations_print, script, linesBytes_singleton, and_self]
  · rintro ⟨hending, rfl⟩
    cases i with
    | block scope span body =>
      cases scope with
      | pipeline =>
        cases hending
        exact .opens span body value
      | input =>
        cases hending
        exact .passes (by decide) span body value
      | step =>
        cases hending
        exact .passes (by decide) span body value
    | act action span payload =>
      cases action with
      | file =>
        rw [operations_file, script] at hending ⊢
        cases hr : ctx.read (Files.join ctx.base payload) with
        | error fault => simp [hr] at hending
        | ok content =>
          rw [hr] at hending
          cases hending
          exact .reads span value hr
      | print =>
        cases value with
        | unit => cases hending
        | text content =>
          simp only [operations_print, script, linesBytes_singleton] at hending ⊢
          cases hending
          exact .prints span payload content

theorem completes_concat_iff {ctx : Context} {is : List Instruction} {i : Instruction}
    {value' : Value} {output' : List UInt8} :
    Completes ctx (is ++ [i]) value' output' ↔ ∃ value output part,
      Completes ctx is value output ∧ Does ctx i value value' part ∧ output' = output ++ part := by
  simp only [Completes, does_iff, List.filterMap_append, script_append, Script.andThen]
  cases hscript : (script ctx (is.filterMap operation?) .unit).ending with
  | error e => simp [hscript]
  | ok value =>
    constructor
    · rintro ⟨hending, rfl⟩
      exact ⟨value, _, _, ⟨rfl, rfl⟩, ⟨hending, rfl⟩, linesBytes_append _ _⟩
    · rintro ⟨value, output, part, ⟨hvalue, rfl⟩, ⟨hending, rfl⟩, rfl⟩
      cases hvalue
      exact ⟨hending, linesBytes_append _ _⟩

section
variable {ctx : Context} {is : List Instruction} {i : Instruction} {value : Value}
  {output : List UInt8}

theorem finalValue_text_iff {content : String} : FinalValue ctx is (.text content) ↔
    ∃ path, lastFile? (sinceReset is) = some path ∧ Contains ctx path content := by
  rw [FinalValue]
  cases lastFile? (sinceReset is) <;> simp

theorem finalValue_concat_of_pipeline (h : isPipeline i = true) :
    FinalValue ctx (is ++ [i]) .unit := by
  rw [FinalValue, sinceReset_concat_of_pipeline is h]
  rfl

theorem finalValue_concat_of_file {path content : String} (h : filePath? i = some path)
    (hcontent : Contains ctx path content) : FinalValue ctx (is ++ [i]) (.text content) := by
  have hpipeline : isPipeline i = false := by
    cases i with
    | block scope span body => cases h
    | act action span payload => rfl
  rw [finalValue_text_iff, sinceReset_concat is hpipeline, lastFile?_concat, h, Option.some_or]
  exact ⟨path, rfl, hcontent⟩

theorem finalValue_concat (hpipeline : isPipeline i = false) (hfile : filePath? i = none) :
    FinalValue ctx (is ++ [i]) value ↔ FinalValue ctx is value := by
  rw [FinalValue, sinceReset_concat is hpipeline, lastFile?_concat, hfile, Option.none_or,
    FinalValue]

theorem finalOutput_concat (h : printSpan? i = none) :
    FinalOutput ctx (is ++ [i]) output ↔ FinalOutput ctx is output := by
  rw [FinalOutput, beforePrints_concat, h, FinalOutput]
  simp

theorem finalOutput_concat_of_print {span : Span} {path content : String}
    (h : printSpan? i = some span) (houtput : FinalOutput ctx is output)
    (hfile : lastFile? is = some path) (hcontent : Contains ctx path content) :
    FinalOutput ctx (is ++ [i]) (output ++ printedLine content) := by
  obtain ⟨contents, rfl, hlines⟩ := houtput
  refine ⟨contents ++ [content], by simp [printedLine_eq], ?_⟩
  rw [beforePrints_concat, h]
  exact List.rel_append hlines (.cons ⟨path, hfile, hcontent⟩ .nil)

theorem readable_concat_iff : Readable ctx (is ++ [i]) ↔
    Readable ctx is ∧ ∀ path, filePath? i = some path → ∃ content, Contains ctx path content := by
  cases hfile : filePath? i with
  | none => simp [Readable, List.filterMap_append, hfile]
  | some path => simp [Readable, List.filterMap_append, hfile, or_imp, forall_and]

end

theorem printSpan?_eq_some_iff {i : Instruction} {span : Span} :
    printSpan? i = some span ↔ ∃ label, i = .act .print span label := by
  constructor
  · intro h
    cases i with
    | block scope place body => cases h
    | act action place payload =>
      cases action with
      | file => cases h
      | print =>
        cases h
        exact ⟨payload, rfl⟩
  · rintro ⟨label, rfl⟩
    rfl

theorem mem_beforePrints_iff {is before : List Instruction} :
    before ∈ beforePrints is ↔
      ∃ span label after, is = before ++ .act .print span label :: after := by
  induction is generalizing before with
  | nil => simp [beforePrints]
  | cons i rest ih =>
    have hlater (j : Instruction) (before : List Instruction) :
        j :: before ∈ (beforePrints rest).map (i :: ·) ↔
          ∃ span label after, i :: rest = j :: before ++ .act .print span label :: after := by
      simp only [List.mem_map, List.cons.injEq, List.cons_append, exists_eq_right_right, ih]
      exact ⟨fun ⟨⟨span, label, after, hrest⟩, hi⟩ => ⟨span, label, after, hi, hrest⟩,
        fun ⟨span, label, after, hi, hrest⟩ => ⟨⟨span, label, after, hrest⟩, hi⟩⟩
    rw [beforePrints]
    cases hi : printSpan? i with
    | none =>
      cases before with
      | nil =>
        simp only [List.mem_map, reduceCtorEq, and_false, exists_false, false_iff]
        rintro ⟨span, label, after, h⟩
        cases h
        cases hi
      | cons j before => exact hlater j before
    | some span =>
      cases before with
      | nil =>
        obtain ⟨label, rfl⟩ := printSpan?_eq_some_iff.1 hi
        exact ⟨fun _ => ⟨span, label, rest, rfl⟩, fun _ => List.mem_cons_self⟩
      | cons j before =>
        rw [List.mem_cons]
        simp only [reduceCtorEq, false_or]
        exact hlater j before

theorem fed_iff {is : List Instruction} :
    Fed is ↔ ∀ before ∈ beforePrints is, lastFile? (sinceReset before) ≠ none := by
  constructor
  · intro h before hbefore
    obtain ⟨span, label, after, his⟩ := mem_beforePrints_iff.1 hbefore
    exact h before span label after his
  · intro h before span label after his
    exact h before (mem_beforePrints_iff.2 ⟨span, label, after, his⟩)

theorem fed_concat_iff {is : List Instruction} {i : Instruction} :
    Fed (is ++ [i]) ↔ Fed is ∧ (printSpan? i ≠ none → lastFile? (sinceReset is) ≠ none) := by
  rw [fed_iff, fed_iff, beforePrints_concat]
  cases printSpan? i with
  | none => simp
  | some span => simp [or_imp, forall_and]

/-- What a script that is not stopped comes to is read off the places of its instructions. -/
theorem final_of_completes {ctx : Context} {is : List Instruction} {value : Value}
    {output : List UInt8} (h : Completes ctx is value output) :
    FinalValue ctx is value ∧ FinalOutput ctx is output ∧ Readable ctx is ∧ Fed is := by
  induction is using List.reverseRecOn generalizing value output with
  | nil =>
    obtain ⟨hending, rfl⟩ := h
    cases hending
    refine ⟨rfl, ⟨[], rfl, .nil⟩, ?_, ?_⟩
    · simp [Readable]
    · rw [fed_iff]
      simp [beforePrints]
  | append_singleton is i ih =>
    obtain ⟨before, printed, part, hbefore, hdoes, rfl⟩ := completes_concat_iff.1 h
    obtain ⟨hvalue, houtput, hreadable, hfed⟩ := ih hbefore
    rw [readable_concat_iff, fed_concat_iff]
    cases hdoes with
    | opens span body =>
      rw [List.append_nil, finalOutput_concat rfl]
      exact ⟨finalValue_concat_of_pipeline rfl, houtput, ⟨hreadable, by simp [filePath?]⟩, hfed,
        by simp [printSpan?]⟩
    | @passes scope hscope span body =>
      have hpipeline : isPipeline (.block scope span body) = false := by
        cases scope with
        | pipeline => exact absurd rfl hscope
        | input => rfl
        | step => rfl
      rw [List.append_nil, finalOutput_concat rfl, finalValue_concat hpipeline rfl]
      exact ⟨hvalue, houtput, ⟨hreadable, by simp [filePath?]⟩, hfed, by simp [printSpan?]⟩
    | @reads span path content _ hcontent =>
      rw [List.append_nil, finalOutput_concat rfl]
      refine ⟨finalValue_concat_of_file rfl hcontent, houtput, ⟨hreadable, ?_⟩, hfed,
        by simp [printSpan?]⟩
      intro path' hpath
      cases hpath
      exact ⟨content, hcontent⟩
    | prints span label content =>
      obtain ⟨path, hfile, hcontent⟩ := finalValue_text_iff.1 hvalue
      rw [finalValue_concat rfl rfl]
      refine ⟨hvalue, ?_, ⟨hreadable, by simp [filePath?]⟩, hfed, fun _ => by simp [hfile]⟩
      exact finalOutput_concat_of_print rfl houtput (lastFile?_of_sinceReset hfile) hcontent

theorem exists_completes {ctx : Context} {is : List Instruction} (hreadable : Readable ctx is)
    (hfed : Fed is) : ∃ value output, Completes ctx is value output := by
  induction is using List.reverseRecOn with
  | nil => exact ⟨.unit, [], rfl, rfl⟩
  | append_singleton is i ih =>
    rw [readable_concat_iff] at hreadable
    rw [fed_concat_iff] at hfed
    obtain ⟨value, output, hcompletes⟩ := ih hreadable.1 hfed.1
    have hdoes : ∃ value' part, Does ctx i value value' part := by
      cases i with
      | block scope span body =>
        cases scope with
        | pipeline => exact ⟨_, _, .opens span body value⟩
        | input => exact ⟨_, _, .passes (by decide) span body value⟩
        | step => exact ⟨_, _, .passes (by decide) span body value⟩
      | act action span payload =>
        cases action with
        | file =>
          obtain ⟨content, hcontent⟩ := hreadable.2 payload rfl
          exact ⟨_, _, .reads span value hcontent⟩
        | print =>
          have hvalue := (final_of_completes hcompletes).1
          cases value with
          | text content => exact ⟨_, _, .prints span payload content⟩
          | unit =>
            -- a value of nothing means that no file has been read since a pipeline opened
            obtain ⟨path, hpath⟩ := Option.ne_none_iff_exists'.1 (hfed.2 (by simp [printSpan?]))
            simp [FinalValue, hpath] at hvalue
    obtain ⟨value', part, hdoes⟩ := hdoes
    exact ⟨value', output ++ part, completes_concat_iff.2 ⟨_, _, _, hcompletes, hdoes, rfl⟩⟩

mutual

/-- An instruction without labels, in which there are no scopes but pipelines and steps. -/
def bare : Instruction → Instruction
  | .block .pipeline span body => .block .pipeline span (bareAll body)
  | .block .input span body | .block .step span body => .block .step span (bareAll body)
  | .act .file span path => .act .file span path
  | .act .print span _ => .act .print span ""

def bareAll : List Instruction → List Instruction
  | [] => []
  | i :: rest => bare i :: bareAll rest

end

mutual

theorem flatten_bare (i : Instruction) : flatten (bare i) = flatten i := by
  cases i with
  | block scope span body =>
    have ih := flattenAll_bareAll body
    cases scope <;> simp only [bare, flatten, ih]
  | act action span payload => cases action <;> simp only [bare, flatten]

theorem flattenAll_bareAll (is : List Instruction) : flattenAll (bareAll is) = flattenAll is := by
  cases is with
  | nil => rw [bareAll]
  | cons i rest => rw [bareAll, flattenAll, flattenAll, flatten_bare i, flattenAll_bareAll rest]

end

theorem observed_runProgram_of_bare {program other : Program}
    (hroot : bare other.root = bare program.root) (hsource : other.source = program.source)
    (read : String → Except Files.ReadFault String) (base : String) (s : State) :
    observed (runProgram read base other s) = observed (runProgram read base program s) := by
  have hflatten : flatten other.root = flatten program.root := by
    rw [← flatten_bare, hroot, flatten_bare]
  rw [observed_runProgram, observed_runProgram, observed_execute, observed_execute, hflatten,
    hsource]

/-- A run that nothing stops is known from the places of its instructions in the source and the
texts of its files. -/
theorem successful_run_closed_form (read : String → Except Files.ReadFault String) (base : String)
    (program : Program) (s : State) :
    (∀ value,
      (runProgram read base program { s with sink := s.sink.unlimited }).2 = .ok value →
      FinalValue ⟨read, base, program.source⟩ program.root.inOrder value ∧
      ∃ output,
        (runProgram read base program { s with sink := s.sink.unlimited }).1.sink.accepted =
          s.sink.accepted ++ output ∧
        FinalOutput ⟨read, base, program.source⟩ program.root.inOrder output) ∧
    ((∃ value, (runProgram read base program { s with sink := s.sink.unlimited }).2 = .ok value) ↔
      Readable ⟨read, base, program.source⟩ program.root.inOrder ∧ Fed program.root.inOrder) ∧
    (∀ other : Program, bare other.root = bare program.root → other.source = program.source →
      ∀ t, observed (runProgram read base other t) = observed (runProgram read base program t)) := by
  obtain ⟨haccepted, hresult⟩ := @runProgram_unlimited read base program s
  have hcompletes (value : Value)
      (h : (runProgram read base program { s with sink := s.sink.unlimited }).2 = .ok value) :
      Completes ⟨read, base, program.source⟩ program.root.inOrder value
        (linesBytes (scriptOf read base program).lines) :=
    ⟨hresult.symm.trans h, rfl⟩
  refine ⟨?_, ⟨?_, ?_⟩, fun other hroot hsource t =>
    observed_runProgram_of_bare hroot hsource read base t⟩
  · intro value h
    obtain ⟨hvalue, houtput, _, _⟩ := final_of_completes (hcompletes value h)
    exact ⟨hvalue, _, haccepted, houtput⟩
  · rintro ⟨value, h⟩
    obtain ⟨_, _, hreadable, hfed⟩ := final_of_completes (hcompletes value h)
    exact ⟨hreadable, hfed⟩
  · rintro ⟨hreadable, hfed⟩
    obtain ⟨value, _, hending, _⟩ := exists_completes hreadable hfed
    exact ⟨value, hresult.trans hending⟩

def nestedSteps : Instruction :=
  .block .step ⟨0, 6⟩ [.act .file ⟨6, 12⟩ "a\"", .act .print ⟨21, 28⟩ "x",
    .block .pipeline ⟨37, 47⟩ [.act .file ⟨47, 53⟩ "b"], .act .print ⟨72, 79⟩ "y",
    .block .pipeline ⟨88, 99⟩ []]

theorem successful_run_closed_form_nested :
    Fed nestedSteps.inOrder ∧
    (runProgram .ok "d" ⟨nestedSteps, 3⟩ { sink := Sink.unlimited {} }).2 = .ok .unit ∧
    (runProgram .ok "d" ⟨nestedSteps, 3⟩ { sink := Sink.unlimited {} }).1.sink.accepted =
      [34, 100, 47, 97, 92, 34, 34, 10, 34, 100, 47, 98, 34, 10] ∧
    FinalValue ⟨.ok, "d", 3⟩ nestedSteps.inOrder .unit ∧
    FinalOutput ⟨.ok, "d", 3⟩ nestedSteps.inOrder
      [34, 100, 47, 97, 92, 34, 34, 10, 34, 100, 47, 98, 34, 10] := by
  obtain ⟨hform, hiff, _⟩ :=
    successful_run_closed_form .ok "d" ⟨nestedSteps, 3⟩ { sink := {} }
  have hfed : Fed nestedSteps.inOrder := by
    rw [fed_iff]
    decide
  obtain ⟨value, hrun⟩ := hiff.2 ⟨fun path _ => ⟨_, rfl⟩, hfed⟩
  have hunit : (.ok .unit : Except RunError Value) = .ok value := hrun
  cases hunit
  obtain ⟨hvalue, output, haccepted, houtput⟩ := hform .unit hrun
  have hprinted : [34, 100, 47, 97, 92, 34, 34, 10, 34, 100, 47, 98, 34, 10] = output := haccepted
  subst hprinted
  exact ⟨hfed, hrun, haccepted, hvalue, houtput⟩

end XmlPipeline.Run
