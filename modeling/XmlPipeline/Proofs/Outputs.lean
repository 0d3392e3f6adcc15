import XmlPipeline.Proofs.Encoding
import XmlPipeline.Proofs.Script
import XmlPipeline.Proofs.Trimming
import XmlPipeline.Suite.Case
set_option autoImplicit false

/-!
Outputs: what runs leave in a buffer. Main statement: it is nothing, or it begins with a quote and
ends with one and a line feed; so no two outputs differ in the blanks around them only, and a
comparison that does not count these takes no output for another one.
-/

namespace XmlPipeline.Text

inductive Framed : List Char → Prop where
  | nothing : Framed []
  | quoted (inner : List Char) : Framed ('"' :: inner ++ ['"', '\n'])

namespace Framed

theorem append {a b : List Char} (ha : Framed a) (hb : Framed b) : Framed (a ++ b) := by
  cases ha with
  | nothing => exact hb
  | quoted inner =>
    cases hb with
    | nothing =>
      rw [List.append_nil]
      exact .quoted inner
    | quoted inner' =>
      have hjoined := Framed.quoted (inner ++ ['"', '\n', '"'] ++ inner')
      simpa using hjoined

theorem line (text : String) : Framed (quote text ++ "\n").toList := by
  rw [quote, String.toList_append, String.toList_ofList, List.append_assoc]
  exact .quoted (text.toList.flatMap escape)

theorem trim_quoted (inner : List Char) :
    trim ('"' :: inner ++ ['"', '\n']) = '"' :: inner ++ ['"'] := by
  have hpadded : Padded ('"' :: inner ++ ['"']) ('"' :: inner ++ ['"', '\n']) :=
    ⟨[], ['\n'], by simp, rfl, by decide⟩
  have hquote : isBlank '"' = false := by decide
  have hlast : ∀ c, ('"' :: inner ++ ['"']).getLast? = some c → isBlank c = false := by
    intro c hc
    rw [List.getLast?_concat, Option.some.injEq] at hc
    rw [← hc, hquote]
  rw [trim_of_padded hpadded, trim, List.cons_append, List.dropWhile_cons_of_neg (by simp [hquote])]
  exact dropEndWhile_eq_self hlast

theorem eq_of_trim_eq {a b : List Char} (ha : Framed a) (hb : Framed b) (h : trim a = trim b) :
    a = b := by
  cases ha with
  | nothing =>
    cases hb with
    | nothing => rfl
    | quoted inner =>
      rw [trim_quoted] at h
      cases h
  | quoted inner =>
    cases hb with
    | nothing =>
      rw [trim_quoted] at h
      cases h
    | quoted inner' =>
      rw [trim_quoted, trim_quoted, List.append_cancel_right_eq] at h
      rw [h]

end Framed

end XmlPipeline.Text

namespace XmlPipeline.Run
open Files (ReadFault)
open Markup (Located)

structure State.Fresh (s : State) : Prop where
  unlimited : s.sink.room = none
  empty : s.sink.accepted = []

/-- What runs leave in a fresh buffer, be it runs of programs or of parts of them, and whether they
succeed or fail. -/
inductive Produced : List UInt8 → Prop where
  | program (read : String → Except ReadFault String) (base : String) (program : Program)
      {s : State} (fresh : s.Fresh) : Produced (runProgram read base program s).1.sink.accepted
  | instruction (ctx : Context) (i : Instruction) (input : Value) {s : State} (fresh : s.Fresh) :
      Produced (execute ctx i input s).1.sink.accepted
  | body (ctx : Context) (is : List Instruction) (input : Value) {s : State} (fresh : s.Fresh) :
      Produced (executeAll ctx is input s).1.sink.accepted

theorem State.Fresh.accepted_runOperations {s : State} (fresh : s.Fresh) (ctx : Context)
    (ops : List Operation) (value : Value) :
    (runOperations ctx ops value s.sink).1.accepted = linesBytes (script ctx ops value).lines := by
  rw [runOperations_eq_deliver, deliver_of_room_eq_none _ _ _ fresh.unlimited, fresh.empty,
    List.nil_append]

theorem Produced.exists_script {output : List UInt8} (h : Produced output) :
    ∃ ctx ops value, output = linesBytes (script ctx ops value).lines := by
  cases h with
  | program read base program fresh =>
    refine ⟨⟨read, base, program.source⟩, flatten program.root, .unit, ?_⟩
    rw [accepted_runProgram_of_unlimited fresh.unlimited, fresh.empty, List.nil_append]
  | instruction ctx i input fresh =>
    refine ⟨ctx, flatten i, input, ?_⟩
    rw [← fresh.accepted_runOperations, ← observed_execute]
    rfl
  | body ctx is input fresh =>
    refine ⟨ctx, flattenAll is, input, ?_⟩
    rw [← fresh.accepted_runOperations, ← observed_executeAll]
    rfl

theorem exists_framed_of_lines {lines : List (Located (List UInt8))}
    (h : ∀ line ∈ lines, ∃ content, line.value = printedLine content) :
    ∃ text : String, Text.Framed text.toList ∧ linesBytes lines = Text.bytes text.toList := by
  induction lines with
  | nil => exact ⟨"", .nothing, rfl⟩
  | cons line later ih =>
    obtain ⟨content, hcontent⟩ := h line List.mem_cons_self
    obtain ⟨text, hframed, htext⟩ := ih fun l hl => h l (List.mem_cons_of_mem line hl)
    have hsplit : linesBytes (line :: later) = line.value ++ linesBytes later := rfl
    refine ⟨Text.quote content ++ "\n" ++ text, ?_, ?_⟩
    · rw [String.toList_append]
      exact (Text.Framed.line content).append hframed
    · rw [hsplit, hcontent, htext, printedLine, ← Text.bytes_append, ← String.toList_append]

theorem Produced.exists_framed {output : List UInt8} (h : Produced output) :
    ∃ text : String, Text.Framed text.toList ∧ output = Text.bytes text.toList := by
  obtain ⟨ctx, ops, value, rfl⟩ := h.exists_script
  exact exists_framed_of_lines fun _ => exists_printedLine_of_mem ctx ops value

end XmlPipeline.Run

namespace XmlPipeline.Suite
open Run (Produced State)

theorem eq_of_trimmed_eq {a b : List UInt8} (ha : Produced a) (hb : Produced b)
    (h : trimmed (Text.decode a) = trimmed (Text.decode b)) : a = b := by
  obtain ⟨text, hframed, rfl⟩ := ha.exists_framed
  obtain ⟨text', hframed', rfl⟩ := hb.exists_framed
  rw [Text.decode_bytes, Text.decode_bytes, trimmed, trimmed, String.ofList_inj] at h
  rw [hframed.eq_of_trim_eq hframed' h]

theorem trimmed_eq_of_outputFault? {e : Expectation} {expected actual : String}
    (h : e.output = some expected) (fits : outputFault? e actual = none) :
    trimmed actual = trimmed expected := by
  rw [outputFault?, h, Option.bind_some] at fits
  split at fits
  · assumption
  · cases fits

/-- What a test compares is what a run produces, and nothing is lost when the blanks around it do
not count: outputs that fit the same expectation are the same. -/
theorem fitting_outputs_identical :
    (∀ output, Produced output → ∃ text : String,
      Text.Framed text.toList ∧ output = Text.bytes text.toList) ∧
    (∀ storage base program, ∃ output, Produced output ∧
      (perform storage base program).1.output = Text.decode output) ∧
    (∀ a b, Produced a → Produced b →
      trimmed (Text.decode a) = trimmed (Text.decode b) → a = b) ∧
    ∀ (e : Expectation) (expected : String) (a b : List UInt8), e.output = some expected →
      Produced a → Produced b → outputFault? e (Text.decode a) = none →
      outputFault? e (Text.decode b) = none → a = b := by
  refine ⟨fun _ => Produced.exists_framed, ?_, fun _ _ => eq_of_trimmed_eq, ?_⟩
  · intro storage base program
    exact ⟨_, .program storage.read base program ⟨rfl, rfl⟩, rfl⟩
  · intro e expected a b hexpected ha hb hfits hfits'
    apply eq_of_trimmed_eq ha hb
    rw [trimmed_eq_of_outputFault? hexpected hfits, trimmed_eq_of_outputFault? hexpected hfits']

def readAndPrint : List Instruction := [.act .file ⟨0, 1⟩ "blank", .act .print ⟨1, 2⟩ ""]

def printedThenStarved : List Instruction :=
  readAndPrint ++ [.block .pipeline ⟨2, 3⟩ [.act .print ⟨1, 2⟩ ""]]

def runOnBlanks (is : List Instruction) : State × Except Run.RunError Run.Value :=
  Run.runProgram (fun _ => .ok " ") "." ⟨.block .pipeline ⟨0, 3⟩ is, 0⟩ { sink := {} }

def paddedExpectation : Expectation where
  output := some "\n\" \" \t\n"

/-- One run succeeds, and the other one fails after it has printed the same. -/
theorem fitting_outputs_identical_blank :
    ((runOnBlanks readAndPrint).2.isOk = true ∧ (runOnBlanks printedThenStarved).2.isOk = false) ∧
    (Produced (runOnBlanks readAndPrint).1.sink.accepted ∧
      Produced (runOnBlanks printedThenStarved).1.sink.accepted) ∧
    outputFault? paddedExpectation
      (Text.decode (runOnBlanks readAndPrint).1.sink.accepted) = none ∧
    outputFault? paddedExpectation
      (Text.decode (runOnBlanks printedThenStarved).1.sink.accepted) = none ∧
    (runOnBlanks readAndPrint).1.sink.accepted =
      (runOnBlanks printedThenStarved).1.sink.accepted ∧
    (runOnBlanks readAndPrint).1.sink.accepted = [34, 32, 34, 10] := by
  have hproduced : ∀ is, Produced (runOnBlanks is).1.sink.accepted :=
    fun is => .program _ _ _ ⟨rfl, rfl⟩
  have hfits : outputFault? paddedExpectation
      (Text.decode (runOnBlanks readAndPrint).1.sink.accepted) = none := by decide +kernel
  have hfits' : outputFault? paddedExpectation
      (Text.decode (runOnBlanks printedThenStarved).1.sink.accepted) = none := by decide +kernel
  have hsame := fitting_outputs_identical.2.2.2 paddedExpectation _ _ _ rfl
    (hproduced readAndPrint) (hproduced printedThenStarved) hfits hfits'
  exact ⟨⟨rfl, rfl⟩, ⟨hproduced _, hproduced _⟩, hfits, hfits', hsame, by decide +kernel⟩

end XmlPipeline.Suite
