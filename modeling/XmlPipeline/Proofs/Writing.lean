import XmlPipeline.Program.Instruction
import XmlPipeline.Proofs.Passages
set_option autoImplicit false

namespace XmlPipeline.Markup

/-- Of all characters only `&` and `<` cannot stand for themselves in a text. -/
def escaped (c : Char) : List Char :=
  if c = '&' then "&amp;".toList else if c = '<' then "&lt;".toList else [c]

theorem escaped_ne_nil (c : Char) : escaped c ≠ [] := by
  unfold escaped
  split
  · decide
  · split
    · decide
    · simp

theorem not_mem_escaped (cs : List Char) : '<' ∉ cs.flatMap escaped := by
  intro h
  obtain ⟨c, _, hc⟩ := List.mem_flatMap.1 h
  unfold escaped at hc
  split at hc
  · exact absurd hc (by decide)
  · split at hc
    · exact absurd hc (by decide)
    · next hlt => exact hlt (List.mem_singleton.1 hc).symm

end XmlPipeline.Markup

namespace XmlPipeline
open Markup (opening closing escaped)

namespace Instruction

mutual

def written : Instruction → List Char
  | .block scope _ body => opening scope.name ++ writtenAll body ++ closing scope.name
  | .act action _ payload =>
    opening action.name ++ payload.toList.flatMap escaped ++ closing action.name

def writtenAll : List Instruction → List Char
  | [] => []
  | i :: rest => i.written ++ writtenAll rest

end

def write (i : Instruction) : String := String.ofList i.written

mutual

/-- The instruction as it stands in a source in which it is written from byte `offset` on: each span
is that of the start tag. -/
def placed (offset : Nat) : Instruction → Instruction
  | .block scope _ body =>
    let inner := offset + Text.size (opening scope.name)
    .block scope ⟨offset, inner⟩ (placedAll inner body)
  | .act action _ payload =>
    .act action ⟨offset, offset + Text.size (opening action.name)⟩ payload

def placedAll (offset : Nat) : List Instruction → List Instruction
  | [] => []
  | i :: rest => i.placed offset :: placedAll (offset + Text.size i.written) rest

end

mutual

def withoutSpans : Instruction → Instruction
  | .block scope _ body => .block scope (.point 0) (withoutSpansAll body)
  | .act action _ payload => .act action (.point 0) payload

def withoutSpansAll : List Instruction → List Instruction
  | [] => []
  | i :: rest => i.withoutSpans :: withoutSpansAll rest

end

mutual

theorem withoutSpans_placed (i : Instruction) (offset : Nat) :
    (i.placed offset).withoutSpans = i.withoutSpans := by
  cases i with
  | block scope span body => rw [placed, withoutSpans, withoutSpans, withoutSpansAll_placedAll]
  | act action span payload => rw [placed, withoutSpans, withoutSpans]

theorem withoutSpansAll_placedAll (is : List Instruction) (offset : Nat) :
    withoutSpansAll (placedAll offset is) = withoutSpansAll is := by
  cases is with
  | nil => rw [placedAll]
  | cons i rest =>
    rw [placedAll, withoutSpansAll, withoutSpansAll, withoutSpans_placed,
      withoutSpansAll_placedAll]

end

mutual

theorem written_placed (i : Instruction) (offset : Nat) : (i.placed offset).written = i.written := by
  cases i with
  | block scope span body => rw [placed, written, written, writtenAll_placedAll]
  | act action span payload => rw [placed, written, written]

theorem writtenAll_placedAll (is : List Instruction) (offset : Nat) :
    writtenAll (placedAll offset is) = writtenAll is := by
  cases is with
  | nil => rw [placedAll]
  | cons i rest => rw [placedAll, writtenAll, writtenAll, written_placed, writtenAll_placedAll]

end

/-- The instruction is written somewhere in a text whose first byte is `offset`, and its span is
that of the start tag there. -/
def StandsIn (text : List Char) (offset : Nat) (i : Instruction) : Prop :=
  ∃ before after, text = before ++ i.written ++ after ∧
    i.span = ⟨offset + Text.size before, offset + Text.size before + Text.size (opening i.tag.name)⟩

theorem standsIn_placed (i : Instruction) (offset : Nat) :
    StandsIn i.written offset (i.placed offset) := by
  refine ⟨[], [], by simp [written_placed], ?_⟩
  cases i <;> rfl

theorem StandsIn.extend {text : List Char} {offset : Nat} {i : Instruction} (a b : List Char)
    (h : StandsIn text (offset + Text.size a) i) : StandsIn (a ++ text ++ b) offset i := by
  obtain ⟨before, after, rfl, hs⟩ := h
  refine ⟨a ++ before, after ++ b, by simp, ?_⟩
  rw [hs, Text.size_append, Nat.add_assoc]

mutual

theorem standsIn_of_mem_preorderFrom (i : Instruction) (depth offset : Nat) {d : Nat}
    {j : Instruction} (h : (d, j) ∈ preorderFrom depth (i.placed offset)) :
    StandsIn i.written offset j := by
  have hself := standsIn_placed i offset
  cases i with
  | block scope span body =>
    rw [placed, preorderFrom, List.mem_cons] at h
    rcases h with h | h
    · cases h
      exact hself
    · have hb := standsIn_of_mem_preorderAll body (depth + 1) _ h
      exact hb.extend (opening scope.name) (closing scope.name)
  | act action span payload =>
    rw [placed, preorderFrom, List.mem_singleton] at h
    cases h
    exact hself

theorem standsIn_of_mem_preorderAll (is : List Instruction) (depth offset : Nat) {d : Nat}
    {j : Instruction} (h : (d, j) ∈ preorderAll depth (placedAll offset is)) :
    StandsIn (writtenAll is) offset j := by
  cases is with
  | nil => simp [placedAll, preorderAll] at h
  | cons i rest =>
    rw [placedAll, preorderAll, List.mem_append] at h
    rw [writtenAll]
    rcases h with h | h
    · have hi := standsIn_of_mem_preorderFrom i depth offset h
      exact hi.extend [] (writtenAll rest)
    · have hr := standsIn_of_mem_preorderAll rest depth _ h
      simpa using hr.extend i.written []

end

end Instruction

end XmlPipeline
