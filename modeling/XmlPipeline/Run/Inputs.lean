import XmlPipeline.Run.Execute
set_option autoImplicit false

namespace XmlPipeline.Run
open Files (ReadFault)

mutual

def inputs (base : String) : Instruction → List String
  | .block _ _ body => inputsAll base body
  | .act .file _ path => [Files.join base path]
  | .act .print _ _ => []

def inputsAll (base : String) : List Instruction → List String
  | [] => []
  | i :: rest => inputs base i ++ inputsAll base rest

end

variable {read other : String → Except ReadFault String} {base : String} {source : Nat}

theorem perform_congr {action : Action} {span : Markup.Span} {path : String}
    (h : ∀ p ∈ inputs base (.act action span path), read p = other p) (input : Value) (s : State) :
    perform ⟨read, base, source⟩ action path input s =
      perform ⟨other, base, source⟩ action path input s := by
  cases action with
  | file =>
    have hp := h (Files.join base path) (by simp [inputs])
    simp [perform, readText, hp]
  | print => rfl

mutual

theorem execute_congr (i : Instruction) (h : ∀ p ∈ inputs base i, read p = other p)
    (input : Value) (s : State) :
    execute ⟨read, base, source⟩ i input s = execute ⟨other, base, source⟩ i input s := by
  cases i with
  | block scope span body =>
    rw [execute, execute]
    exact executeAll_congr body h _ _
  | act action span payload => rw [execute, execute, perform_congr h]

theorem executeAll_congr (is : List Instruction) (h : ∀ p ∈ inputsAll base is, read p = other p)
    (input : Value) (s : State) :
    executeAll ⟨read, base, source⟩ is input s = executeAll ⟨other, base, source⟩ is input s := by
  cases is with
  | nil => rw [executeAll, executeAll]
  | cons i rest =>
    simp only [inputsAll, List.mem_append] at h
    rw [executeAll, executeAll, execute_congr i fun p hp => h p (.inl hp)]
    split
    · rfl
    · exact executeAll_congr rest (fun p hp => h p (.inr hp)) _ _

end

theorem runProgram_congr {program : Program}
    (h : ∀ p ∈ inputs base program.root, read p = other p) (s : State) :
    runProgram read base program s = runProgram other base program s := by
  rw [runProgram, runProgram, execute_congr program.root h]

end XmlPipeline.Run
